import QuoteStack.Machine.Source
import QuoteStack.Proofs.Run.Depth

/-!
What the arithmetic operators compute. Two values are combined by a function of the two values: it
has no stack and no names, and of the dispatches it knows only how many are in progress where a pair
would be dispatched. Where the name of an operator means that operator, dispatching it folds a block
with this function; the main statement is `dispatch_arithmetic`.
-/

namespace QuoteStack

/-! ## Combining values -/

/-- Why two values have no combination. -/
inductive Refusal where
  /-- The numbers have no result. -/
  | arithmetic (fault : Decimal.ArithmeticFault)
  /-- The operation has no meaning for symbols. -/
  | symbols
  /-- The values are of different kinds. -/
  | kinds (left right : Value)
  /-- The blocks are of different lengths. -/
  | lengths (left right : Nat)
  /-- The pair lies inside of too many blocks. -/
  | tooDeep (left right : Value)

namespace Refusal

/-- The cause of failure that a refusal is: a type error for symbols and kinds, a dimension error
for lengths. -/
def cause (limits : Limits) : Refusal → Fault
  | .arithmetic fault => .arithmetic fault
  | .symbols => .symbolOperands
  | .kinds left right => .kindMismatch left right
  | .lengths left right => .lengthMismatch left right
  | .tooDeep _ _ => limits.depthFault

/-- The fault that a dispatch with a refusal ends with. -/
def fault (limits : Limits) (refusal : Refusal) : Fault :=
  (refusal.cause limits).wrap

/-- What a refusal leaves on the stack: a pair that was pushed and not dispatched. -/
def remnant : Refusal → List Value
  | .tooDeep left right => [.block [left, right]]
  | _ => []

end Refusal

/-- The operations of arithmetic. -/
inductive Operation where
  | sum
  | product
  | quotient
  | difference

namespace Operation

/-- The names that an operation has in a new root environment. -/
def names : Operation → List String
  | .sum => ["sum", "add"]
  | .product => ["product", "mul"]
  | .quotient => ["divide", "div"]
  | .difference => ["subtract", "sub"]

/-- The result for two numbers. -/
def ofNumbers (context : Decimal.Context) :
    Operation → Decimal → Decimal → Except Decimal.ArithmeticFault Decimal
  | .sum, x, y => x.storedSum context.memory y
  | .product, x, y => x.storedProduct y
  | .quotient, x, y => Decimal.divide context x y
  | .difference, x, y => x.storedDifference context.memory y

/-- The result for two symbols: only the sum has one, which joins them. -/
def ofSymbols : Operation → String → String → Option String
  | .sum, x, y => some (x ++ y)
  | _, _, _ => none

mutual

/-- Combines two values where the given number of dispatches is in progress. -/
def combine (operation : Operation) (limits : Limits) (depth : Nat) :
    Value → Value → Except Refusal Value
  | .number x, .number y =>
    match operation.ofNumbers limits.toContext x y with
    | .ok result => .ok (.number result)
    | .error fault => .error (.arithmetic fault)
  | .symbol x, .symbol y =>
    match operation.ofSymbols x y with
    | some result => .ok (.symbol result)
    | none => .error .symbols
  | .block left, .block right =>
    if left.length ≠ right.length then .error (.lengths left.length right.length)
    else (combineAll operation limits (depth + 1) left right).map .block
  | left, right => .error (.kinds left right)

/-- Combines the items of two blocks pair by pair, up to the first refusal. A pair is refused where
as many dispatches are in progress as there may be. -/
def combineAll (operation : Operation) (limits : Limits) (depth : Nat) :
    List Value → List Value → Except Refusal (List Value)
  | v :: left, w :: right =>
    if limits.callLimit ≤ depth then .error (.tooDeep v w)
    else do
      let result ← combine operation limits depth v w
      let results ← combineAll operation limits depth left right
      return result :: results
  | _, _ => .ok []

end

/-- The operator that does the operation under the given name. -/
def operator (operation : Operation) (name : String) : Operator :=
  match operation with
  | .sum => sumOperator name
  | .product => productOperator name
  | .quotient => quotientOperator name
  | .difference => differenceOperator name

/-- A new root environment has the operators of all operations under their names. -/
theorem lookup_cells (operation : Operation) {name : String} (hname : name ∈ operation.names) :
    Builtin.cells.lookup name = some (.external (operation.operator name).fold) := by
  cases operation <;> simp only [names, List.mem_cons, List.not_mem_nil, or_false] at hname <;>
    rcases hname with rfl | rfl <;> rfl

section
variable (operation : Operation) (name : String)

theorem name_operator : (operation.operator name).name = name := by
  cases operation <;> rfl

theorem numbers_operator (context : Decimal.Context) (x y : Decimal) :
    (operation.operator name).numbers context x y =
      (operation.ofNumbers context x y).mapError .arithmetic := by
  cases operation <;> rfl

theorem symbols_operator (x y : String) :
    (operation.operator name).symbols x y =
      (match operation.ofSymbols x y with
      | some result => .ok result
      | none => .error .symbolOperands) := by
  cases operation <;> rfl

end

end Operation

/-! ## What a dispatch leaves -/

/-- The state in which a procedure runs that has taken its operand from the stack. -/
def Machine.inside (m : Machine) (name : String) (rest : List Value) : Machine :=
  { m with stack := rest }.enter.emit (.called name)

/-- Below the limit a dispatch goes on with the operand that it has taken. -/
theorem Machine.dispatch_pop {m : Machine} {name : String} {next : Value → Procedure}
    {operand : Value} {rest : List Value} (hfind : m.find? name = some (.external (.pop next)))
    (hstack : m.stack = operand :: rest)
    (hless : (m.root.depth : Int) < m.root.limits.callLimit) :
    m.dispatch name =
      ((next operand).run dispatcher (m.inside name rest)).wrap.mapMachine leave := by
  rw [dispatch_of_room hfind hless]
  have hentered : (m.enter.emit (.called name)).stack = operand :: rest := hstack
  unfold Cell.invoke
  simp only [Procedure.run, hentered]
  rfl

/-- The state after some calls of one name, with another stack. -/
def Machine.afterCalls (m : Machine) (name : String) (calls : Nat) (stack : List Value) : Machine :=
  { m with
    stack
    root := { m.root with journal := List.replicate calls (.called name) ++ m.root.journal } }

theorem Machine.afterCalls_afterCalls (m : Machine) (name : String) (calls calls' : Nat)
    (stack stack' : List Value) :
    (m.afterCalls name calls stack).afterCalls name calls' stack' =
      m.afterCalls name (calls' + calls) stack' := by
  simp only [afterCalls, ← List.append_assoc, List.replicate_append_replicate]

/-- The call that a dispatch notes when it starts is one more call when it has ended. -/
theorem Machine.leave_afterCalls_enter (m : Machine) (name : String) (calls : Nat)
    (stack : List Value) :
    ((m.enter.emit (.called name)).afterCalls name calls stack).leave =
      m.afterCalls name (calls + 1) stack := by
  simp only [afterCalls, enter, emit, leave, List.replicate_succ', List.append_assoc,
    List.singleton_append, Nat.add_sub_cancel]

/-- Goes the way of a combination: after some calls of the name, either on with the result, or out
with the fault of the refusal. -/
def Machine.ending {α : Type} (m : Machine) (name : String) (calls : Nat)
    (result : Except Refusal α) (next : α → Machine → Outcome) : Outcome :=
  match result with
  | .ok v => next v (m.afterCalls name calls m.stack)
  | .error refusal =>
    ⟨some (refusal.fault m.root.limits),
      m.afterCalls name calls (refusal.remnant ++ m.stack)⟩

/-- From the given state, the outcome goes the way of a combination. -/
def Outcome.EndsAs {α : Type} (o : Outcome) (m : Machine) (name : String)
    (result : Except Refusal α) (next : α → Machine → Outcome) : Prop :=
  ∃ calls, o = m.ending name calls result next

/-- How a dispatch ends that has computed a value. -/
def Machine.finish (v : Value) (m : Machine) : Outcome :=
  ⟨none, m.push v⟩

namespace Outcome.EndsAs

variable {α β : Type} {o : Outcome} {m : Machine} {name : String} {result : Except Refusal α}

/-- Going on from a result to another combination is going the way of both in turn. -/
theorem bind {next : α → Machine → Outcome} {next' : β → Machine → Outcome}
    {f : α → Except Refusal β} (h : o.EndsAs m name result next)
    (hnext : ∀ v calls, (next v (m.afterCalls name calls m.stack)).EndsAs
      (m.afterCalls name calls m.stack) name (f v) next') :
    o.EndsAs m name (result >>= f) next' := by
  obtain ⟨calls, rfl⟩ := h
  cases result with
  | error refusal => exact ⟨calls, rfl⟩
  | ok v =>
    obtain ⟨calls', h'⟩ := hnext v calls
    refine ⟨calls' + calls, h'.trans ?_⟩
    show Machine.ending _ name calls' (f v) next' = m.ending name (calls' + calls) (f v) next'
    cases f v <;> simp only [Machine.ending, Machine.afterCalls_afterCalls] <;> rfl

/-- Changing the results changes nothing else. -/
theorem map {f : α → β} {next : β → Machine → Outcome}
    (h : o.EndsAs m name result fun v => next (f v)) : o.EndsAs m name (result.map f) next := by
  obtain ⟨calls, rfl⟩ := h
  refine ⟨calls, ?_⟩
  cases result <;> rfl

/-- What is done after a dispatch is done with its result; its fault stops that, and is not wrapped
again. -/
theorem andThen_wrap {result : Except Refusal Value} (next : Machine → Outcome)
    (h : o.EndsAs m name result Machine.finish) :
    (o.andThen next).wrap.EndsAs m name result fun v m => (next (m.push v)).wrap := by
  obtain ⟨calls, rfl⟩ := h
  refine ⟨calls, ?_⟩
  cases result with
  | ok v => rfl
  | error refusal =>
    show (⟨some (refusal.fault _).wrap, _⟩ : Outcome) = ⟨some (refusal.fault _), _⟩
    rw [Refusal.fault, Fault.wrap_wrap]
    rfl

/-- Leaving a dispatch, its own call is counted with those that it made. -/
theorem leave {result : Except Refusal Value}
    (h : o.EndsAs (m.enter.emit (.called name)) name result Machine.finish) :
    (o.mapMachine Machine.leave).EndsAs m name result Machine.finish := by
  obtain ⟨calls, rfl⟩ := h
  refine ⟨calls + 1, ?_⟩
  cases result with
  | ok v =>
    show (⟨none, ((Machine.afterCalls _ name calls _).leave).push v⟩ : Outcome) = _
    rw [Machine.leave_afterCalls_enter]
    rfl
  | error refusal =>
    show (⟨_, (Machine.afterCalls _ name calls _).leave⟩ : Outcome) = _
    rw [Machine.leave_afterCalls_enter]
    rfl

end Outcome.EndsAs

namespace Operation

open Machine

variable {operation : Operation} {name : String}

/-! ## Dispatches of an operator -/

/-- The name means the operator of the operation. -/
def Owns (operation : Operation) (name : String) (m : Machine) : Prop :=
  m.find? name = some (.external (operation.operator name).fold)

/-- Combining the value with another one from inside of a dispatch, the operator goes the way of the
combination, whatever it does next. -/
def Agrees (operation : Operation) (name : String) (v : Value) : Prop :=
  ∀ (w : Value) (next : Value → Procedure) (m : Machine) (depth : Nat), operation.Owns name m →
    m.root.depth = depth + 1 →
      (((operation.operator name).combine v w next).run dispatcher m).wrap.EndsAs m name
        (operation.combine m.root.limits depth v w)
        fun result m => ((next result).run dispatcher m).wrap

/-- Dispatching the name on a pair combines the pair. -/
theorem Agrees.dispatch_pair {v : Value} (hv : operation.Agrees name v) (w : Value) {m : Machine}
    (hown : operation.Owns name m) (hless : (m.root.depth : Int) < m.root.limits.callLimit) :
    ((m.push (.block [v, w])).dispatch name).EndsAs m name
      (operation.combine m.root.limits m.root.depth v w) finish := by
  rw [dispatch_pop (m := m.push (.block [v, w])) hown rfl hless]
  exact .leave (hv w _ (m.inside name m.stack) m.root.depth hown rfl)

/-- Pair by pair, the operator goes the way of the combinations of the pairs. -/
theorem endsAs_pairwise (left right : List Value) (hleft : ∀ v ∈ left, operation.Agrees name v)
    (next : List Value → Procedure) (combined : List Value) (m : Machine)
    (hown : operation.Owns name m) :
    ((Operator.pairwise name next combined left right).run dispatcher m).wrap.EndsAs m name
      (operation.combineAll m.root.limits m.root.depth left right)
      fun results m => ((next (combined.reverse ++ results)).run dispatcher m).wrap := by
  induction left generalizing right combined m with
  | nil =>
    refine ⟨0, ?_⟩
    simp only [Operator.pairwise, combineAll, ending, List.append_nil]
    rfl
  | cons v left ih =>
    cases right with
    | nil =>
      refine ⟨0, ?_⟩
      simp only [Operator.pairwise, combineAll, ending, List.append_nil]
      rfl
    | cons w right =>
      unfold combineAll
      simp only [Operator.pairwise, Procedure.run]
      by_cases hfull : m.root.limits.callLimit ≤ m.root.depth
      · -- the pair has been pushed, and stays
        rw [if_pos hfull]
        refine ⟨0, ?_⟩
        have hdispatch : dispatcher name (m.push (.block [v, w])) = _ :=
          dispatch_of_full (m := m.push (.block [v, w])) hown hfull
        simp only [Value.execute]
        rw [hdispatch]
        rfl
      · rw [if_neg hfull]
        have hpair := (hleft v List.mem_cons_self).dispatch_pair w hown (by omega)
        -- the result is taken back from the stack, which is then as it was before the pair
        refine (hpair.andThen_wrap _).bind fun result calls => ?_
        have hrest := ih right (fun v hv => hleft v (List.mem_cons_of_mem _ hv))
          (result :: combined) (m.afterCalls name calls m.stack) hown
        simp only [List.reverse_cons, List.append_assoc, List.singleton_append] at hrest
        exact hrest.map

/-- However values are nested, the operator combines them as the operation does. -/
theorem agrees (operation : Operation) (name : String) (v : Value) : operation.Agrees name v := by
  -- what the left value holds is all that is dispatched on
  induction v with
  | number x =>
    intro w next m depth hown hdepth
    refine ⟨0, ?_⟩
    cases w with
    | number y =>
      simp only [Operator.combine, combine, Procedure.run, numbers_operator]
      cases operation.ofNumbers m.root.limits.toContext x y <;> rfl
    | symbol y => simp only [Operator.combine, combine]; rfl
    | block right => simp only [Operator.combine, combine]; rfl
  | symbol x =>
    intro w next m depth hown hdepth
    refine ⟨0, ?_⟩
    cases w with
    | number y => simp only [Operator.combine, combine]; rfl
    | symbol y =>
      simp only [Operator.combine, combine, symbols_operator]
      cases operation.ofSymbols x y <;> rfl
    | block right => simp only [Operator.combine, combine]; rfl
  | block left ih =>
    intro w next m depth hown hdepth
    cases w with
    | number y => exact ⟨0, by simp only [Operator.combine, combine]; rfl⟩
    | symbol y => exact ⟨0, by simp only [Operator.combine, combine]; rfl⟩
    | block right =>
      simp only [Operator.combine, combine, name_operator]
      by_cases hlength : left.length ≠ right.length
      · rw [if_pos hlength, if_pos hlength]
        exact ⟨0, rfl⟩
      · rw [if_neg hlength, if_neg hlength, ← hdepth]
        have hpairs := endsAs_pairwise left right ih (fun items => next (.block items)) [] m hown
        exact hpairs.map

/-- Folding further values into a result, the operator goes the way of the fold. -/
theorem endsAs_foldFrom (others : List Value) (first : Value) (next : Value → Procedure)
    (m : Machine) {depth : Nat} (hown : operation.Owns name m) (hdepth : m.root.depth = depth + 1) :
    (((operation.operator name).foldFrom next first others).run dispatcher m).wrap.EndsAs m name
      (others.foldlM (operation.combine m.root.limits depth) first)
      fun result m => ((next result).run dispatcher m).wrap := by
  induction others generalizing first m with
  | nil => exact ⟨0, rfl⟩
  | cons v rest ih =>
    rw [List.foldlM_cons]
    have hfirst := agrees operation name first v
      (fun result => (operation.operator name).foldFrom next result rest) m depth hown hdepth
    exact hfirst.bind fun result calls => ih result (m.afterCalls name calls m.stack) hown hdepth

end Operation

/-- Where one of the eight names means its operator, dispatching it below the limit takes the
operand from the stack. A value that is no block and a block without items are type errors. The
items of any other block are folded from the left: the result is pushed; a refusal leaves the rest
of the stack, and on it the pair that was not dispatched, if that is why. All that the state gains
besides is the notes of the calls in the journal. -/
theorem dispatch_arithmetic (operation : Operation) (name : String) (m : Machine) (operand : Value)
    (rest : List Value) (hname : name ∈ operation.names)
    (hown : m.find? name = Builtin.cells.lookup name) (hstack : m.stack = operand :: rest)
    (hless : (m.root.depth : Int) < m.root.limits.callLimit) :
    ∃ calls, m.dispatch name =
      match operand with
      | .block (first :: others) =>
        match others.foldlM (operation.combine m.root.limits m.root.depth) first with
        | .ok result => ⟨none, m.afterCalls name calls (result :: rest)⟩
        | .error refusal =>
          ⟨some (refusal.fault m.root.limits),
            m.afterCalls name calls (refusal.remnant ++ rest)⟩
      | .block [] => ⟨some (.external (.foldOfNothing name)), m.afterCalls name calls rest⟩
      | operand => ⟨some (.external (.foldOfValue name operand)), m.afterCalls name calls rest⟩ := by
  have howns : operation.Owns name m := hown.trans (operation.lookup_cells hname)
  have hdispatch := Machine.dispatch_pop howns hstack hless
  rw [operation.name_operator] at hdispatch
  rcases operand with x | x | (_ | ⟨first, others⟩)
  · exact ⟨1, hdispatch⟩
  · exact ⟨1, hdispatch⟩
  · exact ⟨1, hdispatch⟩
  · -- the result is pushed in the operator's own dispatch, and left with it
    have hfold := Operation.endsAs_foldFrom others first (fun result => .push result .done)
      (m.inside name rest) howns rfl
    obtain ⟨calls, hend⟩ := Outcome.EndsAs.leave (m := { m with stack := rest }) hfold
    refine ⟨calls, hdispatch.trans (hend.trans ?_)⟩
    unfold Machine.ending
    simp only [Machine.inside, Machine.enter, Machine.emit]
    cases others.foldlM (operation.combine m.root.limits m.root.depth) first <;> rfl

/-- The sum of two blocks is the block of the sums, and what is below them stays. -/
theorem dispatch_arithmetic_sum_of_blocks :
    let number (n : Nat) : Value := .number (.ofNat n)
    let operand : Value := .block [.block [number 1, number 2], .block [number 10, number 20]]
    let m : Machine := { Machine.new {} with stack := [operand, number 5] }
    "sum" ∈ Operation.sum.names ∧ m.find? "sum" = Builtin.cells.lookup "sum" ∧
      m.stack = [operand, number 5] ∧ (m.root.depth : Int) < m.root.limits.callLimit ∧
      ∃ calls, m.dispatch "sum" =
        ⟨none, m.afterCalls "sum" calls [.block [number 11, number 22], number 5]⟩ := by
  intro number operand m
  have hname : "sum" ∈ Operation.sum.names := by decide
  have hless : (m.root.depth : Int) < m.root.limits.callLimit := by decide
  exact ⟨hname, rfl, rfl, hless,
    dispatch_arithmetic .sum "sum" m operand [number 5] hname rfl rfl hless⟩

end QuoteStack
