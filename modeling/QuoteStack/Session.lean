import QuoteStack.Forest
import QuoteStack.Host

/-!
Sessions: a host works step by step with a root environment and its descendants, which it calls by
names. A failed step leaves what it has done so far, and the session goes on.
-/

namespace QuoteStack

/-- How a host describes a cell. -/
inductive CellForm where
  | values (items : List Value)
  | program (instructions : List Instruction)
  /-- A stored program, given as text. -/
  | source (text : String)
  /-- The builtin procedure of a name. -/
  | builtin (name : String)
  | external (body : Procedure)
  /-- A text in place of a cell. -/
  | foreign (content : String)

/-- The cell that is described. A program text is read on the way, with warnings into the
journal. -/
def CellForm.build (form : CellForm) (m : Machine) : Except Fault Cell × Machine :=
  match form with
  | .values items => (.ok (.values items), m)
  | .program instructions => (.ok (.program instructions), m)
  | .source text =>
    match Program.ofSource text with
    | .ok reading => (.ok (.program (reading.program.map .value)), m.warn reading.warning?)
    | .error fault => (.error fault, m)
  | .builtin name =>
    match Builtin.cells.lookup name with
    | some cell => (.ok cell, m)
    | none => (.error (.undefinedSymbol name), m)
  | .external body => (.ok (.external body), m)
  | .foreign content => (.ok (.foreign content), m)

/-- What can be done with an environment. -/
inductive Action where
  /-- Reads and executes a program text, noting its length, and tells the stack. -/
  | evaluate (source : String)
  /-- Reads and executes a program text. -/
  | runSource (source : String)
  | execute (instructions : List Instruction)
  | executeStep (instruction : Instruction)
  | call (name : String) (arguments : List Value)
  | dispatch (name : String)
  | define (name source : String)
  | setVariable (name : String) (v : Value)
  | variableValue (name : String)
  | set (name : String) (form : CellForm)
  /-- Binds names in order, all or, if a cell cannot be made, none. -/
  | setAll (forms : List (String × CellForm))
  | installBuiltins
  /-- Whether the environment itself binds a name. -/
  | hasLocal (name : String)
  | cell (name : String)
  | push (v : Value)
  | pop
  | peek
  | element (index : Int)
  | clear
  | values
  /-- The text of the top of the stack. -/
  | renderTop
  /-- Makes up a name for a closure. -/
  | nextName

/-- What is known of an environment besides its contents. Names are missing for a root's parent, and
for an environment that no name refers to. -/
structure Standing where
  parent? : Option String
  root? : Option String
  depth : Nat
  limits : Limits

/-- What a step tells. -/
inductive Reply where
  | nothing
  | flag (b : Bool)
  | text (s : String)
  | value (v : Value)
  | values (items : List Value)
  | cell (cell : Cell)
  | standing (standing : Standing)

/-- Ends an action as a run ended, telling something about the state if there was no fault. -/
def Outcome.reply (outcome : Outcome) (tell : Machine → Reply) : Except Fault Reply × Machine :=
  match outcome.fault? with
  | none => (.ok (tell outcome.machine), outcome.machine)
  | some fault => (.error fault, outcome.machine)

/-- Makes the cells that are described, in order, up to the first that cannot be made. -/
def buildAll : List (String × CellForm) → Machine → Except Fault (List (String × Cell)) × Machine
  | [], m => (.ok [], m)
  | (name, form) :: rest, m =>
    match form.build m with
    | (.error fault, m) => (.error fault, m)
    | (.ok cell, m) =>
      let (cells, m) := buildAll rest m
      (cells.map ((name, cell) :: ·), m)

/-- Does something with an environment. -/
def Action.perform (action : Action) (m : Machine) : Except Fault Reply × Machine :=
  match action with
  | .evaluate source => (m.evaluate source).reply fun m => .values m.values
  | .runSource source => (m.runSource source).reply fun _ => .nothing
  | .execute instructions => (m.execute instructions).reply fun _ => .nothing
  | .executeStep instruction => (m.executeStep instruction).reply fun _ => .nothing
  | .call name arguments => (m.call name arguments).reply fun _ => .nothing
  | .dispatch name => (m.dispatch name).reply fun _ => .nothing
  | .define name source => (m.define name source).reply fun _ => .nothing
  | .setVariable name v => (.ok .nothing, m.setVariable name v)
  | .variableValue name => ((m.variableValue name).map .value, m)
  | .set name form =>
    match form.build m with
    | (.ok built, m) => (.ok .nothing, m.set name built)
    | (.error fault, m) => (.error fault, m)
  | .setAll forms =>
    match buildAll forms m with
    | (.ok cells, m) => (.ok .nothing, m.setAll cells)
    | (.error fault, m) => (.error fault, m)
  | .installBuiltins =>
    (.ok (.flag true), m.setAll Builtin.cells)
  | .hasLocal name => (.ok (.flag (m.scope.own.find? name).isSome), m)
  | .cell name => ((m.cell name).map .cell, m)
  | .push v => (.ok .nothing, m.push v)
  | .pop =>
    match m.stack with
    | [] => (.error .stackUnderflow, m)
    | v :: rest => (.ok (.value v), { m with stack := rest })
  | .peek => (.ok ((m.stack.head?.map .value).getD .nothing), m)
  | .element index => ((m.element index).map .value, m)
  | .clear => (.ok .nothing, { m with stack := [] })
  | .values => (.ok (.values m.values), m)
  | .renderTop => (.ok (.text (Value.renderTop m.stack.head?)), m)
  | .nextName => (.ok (.text m.nextName), m.countName)

/-- What a host asks for. -/
inductive Request where
  /-- Does something with the current root environment. -/
  | atRoot (action : Action)
  /-- Replaces the current root environment by a new one. Children of the old one keep it. -/
  | reset
  /-- Does something with the environment of a name. -/
  | at (environment : String) (action : Action)
  /-- Makes a child of the environment of a name, and gives it a name. -/
  | child (environment name : String)
  /-- Tells what is known of the environment of a name. -/
  | standing (environment : String)

/-- The state of a session. -/
structure Session where
  limits : Limits
  /-- The cells that a new root environment binds. -/
  cells : List (String × Cell)
  forest : Forest
  /-- The place of the current root environment. -/
  current : Place
  /-- The places that names refer to, each name once. -/
  names : List (String × Place)

namespace Session

/-- The name of the current root environment. -/
def rootName : String := "root"

/-- A new session with a root environment that binds the given cells. -/
def new (limits : Limits) (cells : List (String × Cell)) : Session :=
  let (forest, place) := (Forest.mk #[]).addRoot (.ofCells limits cells)
  { limits, cells, forest, current := place, names := [(rootName, place)] }

/-- Gives a name to a place, and to no other. -/
def rename (session : Session) (name : String) (place : Place) : Session :=
  { session with
    names := (name, place) :: session.names.filter fun (other, _) => other != name }

/-- The name of a place, if it has one. -/
def nameOf? (session : Session) (place : Place) : Option String :=
  (session.names.find? fun (_, other) => other = place).map (·.1)

/-- What is known of the environment at a place. -/
def standingAt? (session : Session) (place : Place) : Option Standing :=
  (session.forest.view? place).map fun m =>
    { parent? := session.forest.parent? place >>= session.nameOf?
      root? := session.nameOf? ⟨place.tree, 0⟩
      depth := m.root.depth
      limits := m.root.limits }

end Session

/-- How a step ends: with a reply or a fault, and with what happened on the way. -/
structure Answer where
  result : Except Fault Reply
  events : List Event

namespace Session

/-- The fault of a request for an environment that does not exist. -/
def unknown (environment : String) : Answer :=
  ⟨.error (.refused ("no environment " ++ environment)), []⟩

/-- Does something with the environment at a place. -/
def performAt (session : Session) (place : Place) (action : Action) : Answer × Session :=
  match session.forest.view? place with
  | none => (unknown rootName, session)
  | some m =>
    let (result, m) := action.perform { m with root := { m.root with journal := [] } }
    (⟨result, m.root.journal.reverse⟩,
      { session with forest := session.forest.update place m })

/-- Answers a request. -/
def step (session : Session) (request : Request) : Answer × Session :=
  match request with
  | .atRoot action => session.performAt session.current action
  | .reset =>
    let (forest, place) := session.forest.addRoot (.ofCells session.limits session.cells)
    (⟨.ok .nothing, []⟩, { session with forest, current := place }.rename rootName place)
  | .at environment action =>
    match session.names.lookup environment with
    | some place => session.performAt place action
    | none => (unknown environment, session)
  | .child environment name =>
    match session.names.lookup environment with
    | some place =>
      let (forest, child) := session.forest.addChild place
      (⟨.ok .nothing, []⟩, { session with forest }.rename name child)
    | none => (unknown environment, session)
  | .standing environment =>
    match session.names.lookup environment >>= session.standingAt? with
    | some standing => (⟨.ok (.standing standing), []⟩, session)
    | none => (unknown environment, session)

/-- The values on the stack of the environment of a name, bottom first. -/
def valuesOf (session : Session) (environment : String) : List Value :=
  match session.names.lookup environment >>= session.forest.view? with
  | some m => m.values
  | none => []

/-- Answers requests in order. -/
def run (session : Session) : List Request → List Answer × Session
  | [] => ([], session)
  | request :: rest =>
    let (answer, session) := session.step request
    let (answers, session) := run session rest
    (answer :: answers, session)

end Session

end QuoteStack
