import QuoteStack.Scope

/-!
The state that a running program sees: the stack of its environment, what it finds under names, and
what all environments of one root share.
-/

namespace QuoteStack

/-- The limits of a root environment and its descendants. -/
structure Limits extends Decimal.Context where
  /-- How deep dispatches may nest. -/
  maxDepth : Int := 128
  /-- How many nested dispatches the stack of the host has room for, whatever `maxDepth` says. This
  is an idealisation: on a real stack some dispatches take more room than others. -/
  stackDepth : Nat := 100000
  deriving DecidableEq

/-- How deep dispatches may nest: as deep as is allowed, and as the stack has room for. -/
def Limits.callLimit (limits : Limits) : Int :=
  min limits.maxDepth limits.stackDepth

theorem Limits.callLimit_le_maxDepth (limits : Limits) : limits.callLimit ≤ limits.maxDepth :=
  Int.min_le_left _ _

/-- The fault of nesting deeper. It tells how deep dispatches may nest, unless that has too many
digits to be written. -/
def Limits.depthFault (limits : Limits) : Fault :=
  if h : Text.IsShort limits.maxDepth then .callDepth ⟨limits.maxDepth, h⟩ else .longLimit

theorem Limits.depthFault_of_isShort {limits : Limits} (h : Text.IsShort limits.maxDepth) :
    limits.depthFault = .callDepth ⟨limits.maxDepth, h⟩ :=
  dif_pos h

theorem Limits.depthFault_of_not_isShort {limits : Limits} (h : ¬ Text.IsShort limits.maxDepth) :
    limits.depthFault = .longLimit :=
  dif_neg h

/-- What the environments of one root share. -/
structure Root where
  limits : Limits
  /-- How many names of closures have been made up. -/
  minted : Nat := 0
  /-- How many dispatches are in progress. -/
  depth : Nat := 0
  /-- What happened, the latest first. -/
  journal : List Event := []

/-- An environment as a running program sees it. -/
structure Machine where
  /-- The values on the stack, top first. -/
  stack : List Value
  scope : Scope
  root : Root

namespace Machine

/-- Puts a value on the stack. -/
def push (m : Machine) (v : Value) : Machine :=
  { m with stack := v :: m.stack }

/-- The cell that a name is bound to here or in the nearest environment around. -/
def find? (m : Machine) (name : String) : Option Cell :=
  m.scope.find? name

/-- Binds a name in this environment. -/
def set (m : Machine) (name : String) (cell : Cell) : Machine :=
  { m with scope := m.scope.set name cell }

/-- Binds names in this environment, in order. -/
def setAll (m : Machine) (cells : List (String × Cell)) : Machine :=
  { m with scope := m.scope.setAll cells }

/-- Writes to the journal. -/
def emit (m : Machine) (event : Event) : Machine :=
  { m with root := { m.root with journal := event :: m.root.journal } }

/-- The name of the closure that is made next. -/
def nextName (m : Machine) : String :=
  "__do" ++ toString m.root.minted

/-- Counts a name of a closure as used. -/
def countName (m : Machine) : Machine :=
  { m with root := { m.root with minted := m.root.minted + 1 } }

/-- Notes that one more dispatch is in progress. -/
def enter (m : Machine) : Machine :=
  { m with root := { m.root with depth := m.root.depth + 1 } }

/-- Notes that one dispatch less is in progress. -/
def leave (m : Machine) : Machine :=
  { m with root := { m.root with depth := m.root.depth - 1 } }

@[simp] theorem depth_enter (m : Machine) : m.enter.root.depth = m.root.depth + 1 := rfl

@[simp] theorem depth_leave (m : Machine) : m.leave.root.depth = m.root.depth - 1 := rfl

/-- How many dispatches more may be nested. -/
def room (m : Machine) : Nat :=
  (m.root.limits.callLimit - m.root.depth).toNat

/-- A new child of the environment with some names bound to values. -/
def child (m : Machine) (bindings : List (String × Value)) : Machine :=
  { stack := []
    scope := m.scope.enter ⟨bindings.map fun (name, v) => (name, .values [v])⟩
    root := m.root }

/-- Splits a stack into the bindings at its top, the deepest first, and the rest. -/
def spanBindings (found : List (String × Value)) :
    List Value → List (String × Value) × List Value
  | .block [v, .symbol name] :: rest => spanBindings ((name, v) :: found) rest
  | stack => (found, stack)

end Machine

end QuoteStack
