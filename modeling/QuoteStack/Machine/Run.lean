import QuoteStack.Machine

/-!
Running programs. Numbers and blocks push themselves, a number as a block of one; a symbol is
dispatched: it is looked up from the environment outwards, and its cell is run, called or pushed
here. Dispatches nest as deep as the limit allows, which is also why every run ends.
-/

namespace QuoteStack

/-- How an operation ends: with a fault or without, and with the state it leaves either way. -/
structure Outcome where
  fault? : Option Fault
  machine : Machine

namespace Outcome

/-- Goes on if there was no fault. -/
@[inline] def andThen (outcome : Outcome) (next : Machine → Outcome) : Outcome :=
  match outcome with
  | ⟨none, m⟩ => next m
  | failed => failed

/-- Wraps the fault, if there is one. -/
def wrap (outcome : Outcome) : Outcome :=
  { outcome with fault? := outcome.fault?.map Fault.wrap }

/-- Applies a function to the state. -/
@[inline] def mapMachine (outcome : Outcome) (f : Machine → Machine) : Outcome :=
  { outcome with machine := f outcome.machine }

end Outcome

/-- What a dispatch does, when it is left open how deep it may nest. -/
abbrev Dispatch := String → Machine → Outcome

/-- Executes a value. -/
def Value.execute (dispatch : Dispatch) (v : Value) (m : Machine) : Outcome :=
  match v with
  | .number n => ⟨none, m.push (.block [.number n])⟩
  | .block items => ⟨none, m.push (.block items)⟩
  | .symbol name => dispatch name m

/-- Executes an instruction. -/
def Instruction.execute (dispatch : Dispatch) (instruction : Instruction) (m : Machine) :
    Outcome :=
  match instruction with
  | .value v => v.execute dispatch m
  | .foreign kind => ⟨some (.notExecutable kind), m⟩

/-- Executes instructions in order, up to the first fault. -/
def executeEach (dispatch : Dispatch) : List Instruction → Machine → Outcome
  | [], m => ⟨none, m⟩
  | instruction :: rest, m =>
    (instruction.execute dispatch m).andThen fun m => executeEach dispatch rest m

/-- Runs an external procedure. -/
def Procedure.run (dispatch : Dispatch) : Procedure → Machine → Outcome
  | .done, m => ⟨none, m⟩
  | .fail fault, m => ⟨some fault, m⟩
  | .push v next, m => next.run dispatch (m.push v)
  | .pop next, m =>
    match m.stack with
    | [] => ⟨some .stackUnderflow, m⟩
    | v :: rest => (next v).run dispatch { m with stack := rest }
  | .peek next, m => (next m.stack.head?).run dispatch m
  | .clear next, m => next.run dispatch { m with stack := [] }
  | .height next, m => (next m.stack.length).run dispatch m
  | .depth next, m => (next m.root.depth).run dispatch m
  | .context next, m => (next m.root.limits.toContext).run dispatch m
  | .popBindings next, m =>
    match Machine.spanBindings [] m.stack with
    | (_, []) => ⟨some .stackUnderflow, { m with stack := [] }⟩
    | (bindings, v :: rest) => (next bindings v).run dispatch { m with stack := rest }
  | .mint next, m => (next m.nextName).run dispatch m.countName
  | .register name cell next, m => next.run dispatch (m.set name cell)
  | .execute v next, m => (v.execute dispatch m).andThen fun m => next.run dispatch m
  | .inChild bindings body next, m =>
    match body.run dispatch (m.child bindings) with
    | ⟨none, child⟩ => (next child.stack).run dispatch { m with root := child.root }
    | ⟨some fault, child⟩ => ⟨some fault, { m with root := child.root }⟩
  | .emit event next, m => next.run dispatch (m.emit event)

/-- Runs, calls or pushes a cell that was found under a name. -/
def Cell.invoke (dispatch : Dispatch) (name : String) (cell : Cell) (m : Machine) : Outcome :=
  match cell with
  | .program instructions => executeEach dispatch instructions (m.emit (.entered name))
  | .values items => ⟨none, m.push (.block items)⟩
  | .external body => (body.run dispatch (m.emit (.called name))).wrap
  | .foreign content => ⟨some (.notACell name content), m⟩

/-- Computes on a stack of its own, so that deep nesting does not exhaust the caller's. -/
def onFreshStack (compute : Unit → Outcome) : Outcome :=
  (Task.spawn compute .dedicated).get

theorem onFreshStack_eq (compute : Unit → Outcome) : onFreshStack compute = compute () :=
  rfl

/-- How many nested dispatches share a stack. -/
def sharedStackDepth : Nat := 2048

namespace Machine

/-- Dispatches a name where `room` dispatches may be nested, this one included. -/
def dispatchWithin : Nat → Dispatch
  | 0, name, m =>
    match m.find? name with
    | none => ⟨some (.undefinedSymbol name), m⟩
    | some _ => ⟨some m.root.limits.depthFault, m⟩
  | room + 1, name, m =>
    match m.find? name with
    | none => ⟨some (.undefinedSymbol name), m⟩
    | some cell =>
      let invoke (_ : Unit) : Outcome :=
        (cell.invoke (dispatchWithin room) name m.enter).mapMachine leave
      if (room + 1) % sharedStackDepth = 0 then onFreshStack invoke else invoke ()

/-- With room for a dispatch, the cell of the name is invoked with less room. -/
theorem dispatchWithin_succ (room : Nat) {name : String} {m : Machine} {cell : Cell}
    (hfind : m.find? name = some cell) :
    dispatchWithin (room + 1) name m =
      (cell.invoke (dispatchWithin room) name m.enter).mapMachine leave := by
  simp only [dispatchWithin, hfind, onFreshStack_eq, ite_self]

/-- Dispatches a name. -/
def dispatch (m : Machine) (name : String) : Outcome :=
  dispatchWithin m.room name m

/-- Executes an instruction. -/
def executeStep (m : Machine) (instruction : Instruction) : Outcome :=
  instruction.execute (dispatchWithin m.room) m

/-- Executes instructions in order. -/
def execute (m : Machine) (instructions : List Instruction) : Outcome :=
  executeEach (dispatchWithin m.room) instructions m

/-- Pushes arguments in order and dispatches a name. -/
def call (m : Machine) (name : String) (arguments : List Value) : Outcome :=
  (arguments.foldl push m).dispatch name

end Machine

end QuoteStack
