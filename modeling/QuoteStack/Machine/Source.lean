import QuoteStack.Builtin
import QuoteStack.MachineInteger

/-!
Running program texts, and the other things that a host does with an environment.
-/

namespace QuoteStack

/-- A new root environment that binds the given cells. -/
def Machine.ofCells (limits : Limits) (cells : List (String × Cell)) : Machine :=
  { stack := [], scope := (∅ : Scope).setAll cells, root := { limits } }

/-- A new root environment with the builtin procedures. -/
def Machine.new (limits : Limits) : Machine :=
  .ofCells limits Builtin.cells

namespace Machine

/-- Notes a warning about a program text, if there is one. -/
def warn (m : Machine) : Option Program.Warning → Machine
  | some warning => m.emit (.warned warning)
  | none => m

/-- Reads a program text and executes it. -/
def runSource (m : Machine) (source : String) : Outcome :=
  match Program.ofSource source with
  | .ok reading => (m.warn reading.warning?).execute (reading.program.map .value)
  | .error fault => ⟨some fault, m⟩

/-- Reads a program text, notes how long it is, and executes it. -/
def evaluate (m : Machine) (source : String) : Outcome :=
  match Program.ofSource source with
  | .ok reading =>
    let m := (m.warn reading.warning?).emit (.started reading.program.length)
    m.execute (reading.program.map .value)
  | .error fault => ⟨some fault, m⟩

/-- Binds a name to a program text. -/
def define (m : Machine) (name source : String) : Outcome :=
  match Program.ofSource source with
  | .ok reading =>
    ⟨none, (m.warn reading.warning?).set name (.program (reading.program.map .value))⟩
  | .error fault => ⟨some fault, m⟩

/-- The values on the stack, bottom first. -/
def values (m : Machine) : List Value :=
  m.stack.reverse

/-- The cell that a name is bound to here or in the nearest environment around. -/
def cell (m : Machine) (name : String) : Except Fault Cell :=
  match m.find? name with
  | some cell => .ok cell
  | none => .error (.undefinedSymbol name)

/-- The value that a variable stands for: a stored block of one item stands for the item. -/
def variableValue (m : Machine) (name : String) : Except Fault Value :=
  match m.cell name with
  | .ok (.values [v]) => .ok v
  | .ok (.values items) => .ok (.block items)
  | .ok _ => .error (.notAVariable name)
  | .error fault => .error fault

/-- Binds a variable. -/
def setVariable (m : Machine) (name : String) (v : Value) : Machine :=
  m.set name (.values [v])

/-- The value at a place of the stack: counted from the bottom on from 0, or from the top down
from -1. -/
def element (m : Machine) (index : Int) : Except Fault Value :=
  if !isMachineInteger index then .error .indexSize
  else
    let found? :=
      if index < 0 then m.stack[(-index - 1).toNat]? else m.values[index.toNat]?
    match found? with
    | some v => .ok v
    | none => .error .noSuchElement

end Machine

/-- Executes a program text in a new root environment. -/
def runProgram (limits : Limits) (source : String) : Outcome :=
  (Machine.new limits).evaluate source

/-- What happened in a run, in order. -/
def Outcome.events (outcome : Outcome) : List Event :=
  outcome.machine.root.journal.reverse

end QuoteStack
