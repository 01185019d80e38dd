import QuoteStack.Decimal.Range
import QuoteStack.Journal

/-!
External procedures, and the cells that hold them. A procedure is a tree of operations on the
environment that called it: each operation says what is done next with its result. Trees have no
loops, so a procedure ends unless what it executes does not.
-/

namespace QuoteStack

/-- Something to execute: a value, or a host object of a kind that programs do not know. -/
inductive Instruction where
  | value (v : Value)
  | foreign (kind : String)

mutual

/-- What an external procedure does. -/
inductive Procedure where
  /-- Ends. -/
  | done
  /-- Ends with a fault. -/
  | fail (fault : Fault)
  /-- Pushes a value. -/
  | push (v : Value) (next : Procedure)
  /-- Takes the top of the stack. -/
  | pop (next : Value → Procedure)
  /-- Looks at the top of the stack, if there is one. -/
  | peek (next : Option Value → Procedure)
  /-- Empties the stack. -/
  | clear (next : Procedure)
  /-- Counts the values on the stack. -/
  | height (next : Nat → Procedure)
  /-- Counts the dispatches in progress. -/
  | depth (next : Nat → Procedure)
  /-- Looks up what numbers are computed with. -/
  | context (next : Decimal.Context → Procedure)
  /-- Takes all pairs of a value and a symbol from the top of the stack, and the value below them.
  The bindings are listed with the deepest first. -/
  | popBindings (next : List (String × Value) → Value → Procedure)
  /-- Makes up a name that no closure has had so far. -/
  | mint (next : String → Procedure)
  /-- Binds a name to a cell. -/
  | register (name : String) (cell : Cell) (next : Procedure)
  /-- Executes a value. -/
  | execute (v : Value) (next : Procedure)
  /-- Runs a procedure in a new child environment with the given bindings, the first of equal names
  counting, and gives the stack that the child is left with, top first. -/
  | inChild (bindings : List (String × Value)) (body : Procedure)
      (next : List Value → Procedure)
  /-- Writes to the journal. -/
  | emit (event : Event) (next : Procedure)

/-- What a name can be bound to. -/
inductive Cell where
  /-- A stored program, which runs in the environment that names it. -/
  | program (instructions : List Instruction)
  /-- A stored block, which is pushed. -/
  | values (items : List Value)
  /-- An external procedure. -/
  | external (body : Procedure)
  /-- A text that a host put where a cell belongs. -/
  | foreign (content : String)

end

namespace Procedure

instance : Inhabited Procedure := ⟨.done⟩

/-- Induction along what a procedure does; the cells that it binds on the way are data to it. -/
@[induction_eliminator]
theorem induct {motive : Procedure → Prop} (done : motive .done)
    (fail : ∀ fault, motive (.fail fault))
    (push : ∀ v next, motive next → motive (.push v next))
    (pop : ∀ next, (∀ v, motive (next v)) → motive (.pop next))
    (peek : ∀ next, (∀ v?, motive (next v?)) → motive (.peek next))
    (clear : ∀ next, motive next → motive (.clear next))
    (height : ∀ next, (∀ n, motive (next n)) → motive (.height next))
    (depth : ∀ next, (∀ n, motive (next n)) → motive (.depth next))
    (context : ∀ next, (∀ context, motive (next context)) → motive (.context next))
    (popBindings : ∀ next, (∀ bindings v, motive (next bindings v)) → motive (.popBindings next))
    (mint : ∀ next, (∀ name, motive (next name)) → motive (.mint next))
    (register : ∀ name cell next, motive next → motive (.register name cell next))
    (execute : ∀ v next, motive next → motive (.execute v next))
    (inChild : ∀ bindings body next, motive body → (∀ values, motive (next values)) →
      motive (.inChild bindings body next))
    (emit : ∀ event next, motive next → motive (.emit event next)) (body : Procedure) :
    motive body := by
  refine @Procedure.rec motive (fun _ => True) done fail push pop peek clear height depth context
    popBindings mint (fun name cell next _ => register name cell next) execute inChild emit
    ?_ ?_ ?_ ?_ body
  all_goals intros; trivial

/-- Executes the values of a block in order. -/
def executeAll : List Value → Procedure
  | [] => .done
  | v :: rest => .execute v (executeAll rest)

/-- Pushes values in order and goes on. -/
def pushAll (next : Procedure) : List Value → Procedure
  | [] => next
  | v :: rest => .push v (pushAll next rest)

end Procedure

end QuoteStack
