import QuoteStack.Proofs.Arithmetic.Shape
import QuoteStack.Proofs.Decimal.Exact

/-!
Exact folds. The sum, the difference and the product of numbers are exact as long as each step of
the fold gives its exact result, that is, as long as no result is too large, loses digits below the
least exponent, or takes more digits than there is memory for. The main statement is
`dispatch_folds_exactly`. Sums and differences of numbers that can be stored lose no digits, so they
are exact whenever they do not fail (`foldsExactly_of_foldlM`).
-/

namespace QuoteStack

open Decimal

namespace Operation

variable {operation : Operation} {context : Decimal.Context}

/-! ## Folds of numbers -/

/-- The number is the exact result for two numbers. Quotients are rounded, and none counts as
exact. -/
def IsExact (operation : Operation) (x y z : Decimal) : Prop :=
  match operation with
  | .sum => z = x.add y
  | .product => z = x.mul y
  | .quotient => False
  | .difference => z = x.sub y

/-- Folding the numbers from the left, the operation gives the exact result at each step. -/
inductive FoldsExactly (operation : Operation) (context : Decimal.Context) : List Decimal → Prop where
  | nil : FoldsExactly operation context []
  | singleton (x : Decimal) : FoldsExactly operation context [x]
  | cons {x y z : Decimal} {rest : List Decimal}
      (result : operation.ofNumbers context x y = .ok z) (exact : operation.IsExact x y z)
      (others : FoldsExactly operation context (z :: rest)) :
      FoldsExactly operation context (x :: y :: rest)

/-- The number is what the operation makes of a first number and others in exact arithmetic. -/
def IsResult (operation : Operation) (first : Decimal) (others : List Decimal) (z : Decimal) :
    Prop :=
  match operation with
  | .sum => IsSum (first :: others) z
  | .product => IsProduct (first :: others) z
  | .quotient => False
  | .difference => IsDifference first others z

theorem isResult_nil (hoperation : operation ≠ .quotient) (x : Decimal) :
    operation.IsResult x [] x := by
  cases operation with
  | sum => exact isSum_singleton x
  | product => exact isProduct_singleton x
  | quotient => exact absurd rfl hoperation
  | difference => exact isDifference_nil x

theorem IsResult.of_isExact {x y z result : Decimal} {rest : List Decimal}
    (h : operation.IsResult z rest result) (hexact : operation.IsExact x y z) :
    operation.IsResult x (y :: rest) result := by
  cases operation with
  | sum => exact IsSum.of_add (hexact ▸ h)
  | product => exact IsProduct.of_mul (hexact ▸ h)
  | quotient => exact hexact.elim
  | difference => exact IsDifference.of_sub (hexact ▸ h)

/-- A fold that is exact at each step gives the exact result of all numbers. -/
theorem FoldsExactly.exists_result (hoperation : operation ≠ .quotient) {others : List Decimal}
    {first : Decimal} (h : operation.FoldsExactly context (first :: others)) :
    ∃ z, others.foldlM (operation.ofNumbers context) first = .ok z ∧
      operation.IsResult first others z := by
  induction others generalizing first with
  | nil => exact ⟨first, rfl, isResult_nil hoperation first⟩
  | cons y rest ih =>
    cases h with
    | cons result exact others =>
      obtain ⟨z, hfold, hz⟩ := ih others
      refine ⟨z, ?_, hz.of_isExact exact⟩
      rw [List.foldlM_cons, result]
      exact hfold

/-- Sums and differences of numbers that can be stored are exact wherever there are any. -/
theorem foldsExactly_of_foldlM (hoperation : operation = .sum ∨ operation = .difference)
    {others : List Decimal} {first z : Decimal} (hfirst : first.IsStored)
    (hothers : ∀ y ∈ others, y.IsStored)
    (h : others.foldlM (operation.ofNumbers context) first = .ok z) :
    operation.FoldsExactly context (first :: others) := by
  induction others generalizing first with
  | nil => exact .singleton first
  | cons y rest ih =>
    obtain ⟨hy, hrest⟩ := List.forall_mem_cons.mp hothers
    rw [List.foldlM_cons] at h
    obtain ⟨mid, hmid, hfold⟩ := bind_eq_ok_iff.mp h
    rcases hoperation with rfl | rfl
    · obtain ⟨hexact, hstored⟩ := hfirst.storedSum hy hmid
      exact .cons hmid hexact (ih hstored hrest hfold)
    · obtain ⟨hexact, hstored⟩ := hfirst.storedSum hy.neg hmid
      exact .cons hmid hexact (ih hstored hrest hfold)

/-- How many digits numbers have around the point together, and one more for each. -/
def spanAll (numbers : List Decimal) : Nat :=
  (numbers.map fun x => x.span + 1).sum

/-- Folds of numbers that span together few enough digits to be stored, and no more than there is
memory for, are exact. -/
theorem foldsExactly_of_spanAll (hoperation : operation ≠ .quotient) {others : List Decimal}
    {first : Decimal} (hmemory : spanAll (first :: others) ≤ context.memory)
    (hstorable : spanAll (first :: others) ≤ storableLength) :
    operation.FoldsExactly context (first :: others) := by
  induction others generalizing first with
  | nil => exact .singleton first
  | cons y rest ih =>
    unfold spanAll at hmemory hstorable ih
    simp only [List.map_cons, List.sum_cons] at hmemory hstorable ih
    have hsum := span_add_le first y
    have hdifference := span_add_le first y.neg
    have hproduct := span_mul_le first y
    have hneg := span_neg y
    cases operation with
    | sum =>
      exact .cons (storedSum_of_span (by omega) (by omega)) rfl (ih (by omega) (by omega))
    | product => exact .cons (storedProduct_of_span (by omega)) rfl (ih (by omega) (by omega))
    | quotient => exact absurd rfl hoperation
    | difference =>
      have hresult : first.storedSum context.memory y.neg = .ok (first.add y.neg) :=
        storedSum_of_span (by omega) (by omega)
      exact .cons hresult rfl (@ih (first.add y.neg) (by omega) (by omega))

/-! ## Folds of values -/

/-- Dispatching an operator on a block of values of one accepted shape replaces the block by a value
of that shape, which has at each place the fold of the numbers there, if all these folds have
results. -/
theorem exists_dispatch {name : String} {m : Machine} {first : Value} {others rest : List Value}
    (hown : operation.Owns name m) (hstack : m.stack = .block (first :: others) :: rest)
    (hsame : ∀ v ∈ others, v.shape = first.shape)
    (haccepts : operation.Accepts m.root.limits m.root.depth first.shape)
    (hnumbers : ∀ path x, first.numberAt? path = some x → ∃ z,
      (Value.numbersAt path others).foldlM (operation.ofNumbers m.root.limits.toContext) x = .ok z) :
    ∃ result calls, m.dispatch name = ⟨none, m.afterCalls name calls (result :: rest)⟩ ∧
      result.shape = first.shape ∧
      ∀ path x, first.numberAt? path = some x → ∃ z,
        (Value.numbersAt path others).foldlM (operation.ofNumbers m.root.limits.toContext) x =
          .ok z ∧
        result.numberAt? path = some z := by
  have hless := haccepts.depth_lt
  obtain ⟨calls, hdispatch⟩ := endsAs_dispatch hown hstack hless
  obtain ⟨result, hresult⟩ := exists_foldlM others first hless hsame haccepts hnumbers
  obtain ⟨-, -, hshape, hplaces⟩ := shape_of_foldlM others first result hless hresult
  refine ⟨result, calls, ?_, hshape, hplaces⟩
  rw [hdispatch, hresult]
  rfl

/-- Numbers stand at the end of the empty path. -/
theorem numbersAt_nil_number (numbers : List Decimal) :
    Value.numbersAt [] (numbers.map .number) = numbers := by
  unfold Value.numbersAt
  rw [List.filterMap_map]
  exact List.filterMap_some

/-- Dispatching an operator on a block of numbers succeeds if and only if the numbers have a fold, and
then the fold replaces the block. -/
theorem dispatch_numbers {name : String} {m : Machine} {first : Decimal} {others : List Decimal}
    {rest : List Value} (hown : operation.Owns name m)
    (hstack : m.stack = .block ((first :: others).map .number) :: rest)
    (hless : (m.root.depth : Int) < m.root.limits.callLimit) :
    (∀ z, others.foldlM (operation.ofNumbers m.root.limits.toContext) first = .ok z →
      ∃ calls, m.dispatch name = ⟨none, m.afterCalls name calls (.number z :: rest)⟩) ∧
    ∀ fault, others.foldlM (operation.ofNumbers m.root.limits.toContext) first = .error fault →
      (m.dispatch name).fault? ≠ none := by
  obtain ⟨calls, hdispatch⟩ := endsAs_dispatch hown hstack hless
  cases hvalues : (others.map Value.number).foldlM
      (operation.combine m.root.limits m.root.depth) (.number first) with
  | ok result =>
    obtain ⟨-, -, hshape, hplaces⟩ := shape_of_foldlM _ _ _ hless hvalues
    obtain ⟨z, hfold, hresult⟩ := hplaces [] first rfl
    rw [numbersAt_nil_number] at hfold
    cases result with
    | number x =>
      obtain rfl := Option.some.inj hresult
      refine ⟨fun z' hz' => ?_, fun fault hfault => ?_⟩
      · obtain rfl := Except.ok.inj (hfold.symm.trans hz')
        rw [hdispatch, hvalues]
        exact ⟨calls, rfl⟩
      · cases hfold.symm.trans hfault
    | symbol x => cases hshape
    | block items => cases hshape
  | error refusal =>
    refine ⟨fun z hnumbers => ?_, fun fault _ => ?_⟩
    · -- with a fold of the numbers there would be a fold of the values
      have hsame : ∀ v ∈ others.map Value.number, v.shape = (Value.number first).shape := by
        intro v hv
        obtain ⟨y, -, rfl⟩ := List.mem_map.mp hv
        rfl
      have haccepts : operation.Accepts m.root.limits m.root.depth (Value.number first).shape :=
        ⟨by simpa [Value.shape, Shape.need] using hless, Or.inr rfl⟩
      obtain ⟨result, hresult⟩ := exists_foldlM _ _ hless hsame haccepts fun path x hx => by
        cases path with
        | nil =>
          obtain rfl := Option.some.inj hx
          exact ⟨z, (numbersAt_nil_number others).symm ▸ hnumbers⟩
        | cons i path => cases hx
      cases hvalues.symm.trans hresult
    · rw [hdispatch, hvalues]
      exact Option.some_ne_none _

/-- Sums and differences of numbers that can be stored are exact whenever they do not fail. -/
theorem dispatch_stored_numbers {name : String} {m : Machine} {first : Decimal}
    {others : List Decimal} {rest : List Value} (hname : name ∈ operation.names)
    (hoperation : operation = .sum ∨ operation = .difference)
    (hown : m.find? name = Builtin.cells.lookup name)
    (hstack : m.stack = .block ((first :: others).map .number) :: rest)
    (hless : (m.root.depth : Int) < m.root.limits.callLimit) (hfirst : first.IsStored)
    (hothers : ∀ y ∈ others, y.IsStored) (hnone : (m.dispatch name).fault? = none) :
    ∃ result calls, m.dispatch name = ⟨none, m.afterCalls name calls (.number result :: rest)⟩ ∧
      operation.IsResult first others result := by
  have hdispatch := dispatch_numbers (hown.trans (operation.lookup_cells hname)) hstack hless
  have hne : operation ≠ .quotient := by
    rintro rfl
    rcases hoperation with hsum | hdifference
    · cases hsum
    · cases hdifference
  cases hfold : others.foldlM (operation.ofNumbers m.root.limits.toContext) first with
  | error fault => exact absurd hnone (hdispatch.2 fault hfold)
  | ok z =>
    obtain ⟨calls, hdispatch⟩ := hdispatch.1 z hfold
    obtain ⟨z', hfold', hresult⟩ :=
      (foldsExactly_of_foldlM hoperation hfirst hothers hfold).exists_result hne
    obtain rfl := Except.ok.inj (hfold.symm.trans hfold')
    exact ⟨z, calls, hdispatch, hresult⟩

end Operation

/-- Where a name of the sum, the difference or the product means its operator, dispatching it below
the limit on a block of numbers replaces the block by the exact result, if each step of the fold has
its exact result. -/
theorem dispatch_folds_exactly (operation : Operation) (name : String) (m : Machine)
    (first : Decimal) (others : List Decimal) (rest : List Value) (hname : name ∈ operation.names)
    (hoperation : operation ≠ .quotient) (hown : m.find? name = Builtin.cells.lookup name)
    (hstack : m.stack = .block ((first :: others).map .number) :: rest)
    (hless : (m.root.depth : Int) < m.root.limits.callLimit)
    (hexact : operation.FoldsExactly m.root.limits.toContext (first :: others)) :
    ∃ result calls, m.dispatch name = ⟨none, m.afterCalls name calls (.number result :: rest)⟩ ∧
      operation.IsResult first others result := by
  obtain ⟨z, hfold, hz⟩ := hexact.exists_result hoperation
  obtain ⟨calls, hdispatch⟩ :=
    (Operation.dispatch_numbers (hown.trans (operation.lookup_cells hname)) hstack hless).1 z hfold
  exact ⟨z, calls, hdispatch, hz⟩

/-- One and a half and an eighth with minus two and a half between them are below zero, with the least
of the three exponents. -/
theorem dispatch_folds_exactly_below_zero :
    let first : Decimal := ⟨false, 15, -1⟩
    let others : List Decimal := [⟨true, 250, -2⟩, ⟨false, 125, -3⟩]
    let m : Machine :=
      { Machine.new {} with stack := [.block ((first :: others).map .number), .symbol "rest"] }
    "sum" ∈ Operation.sum.names ∧ Operation.sum ≠ .quotient ∧
      m.find? "sum" = Builtin.cells.lookup "sum" ∧
      m.stack = .block ((first :: others).map .number) :: [.symbol "rest"] ∧
      (m.root.depth : Int) < m.root.limits.callLimit ∧
      Operation.sum.FoldsExactly m.root.limits.toContext (first :: others) ∧
      ∃ result calls,
        m.dispatch "sum" = ⟨none, m.afterCalls "sum" calls [.number result, .symbol "rest"]⟩ ∧
        IsSum (first :: others) result ∧ result = ⟨true, 875, -3⟩ := by
  intro first others m
  have hname : "sum" ∈ Operation.sum.names := by decide
  have hoperation : Operation.sum ≠ .quotient := nofun
  have hless : (m.root.depth : Int) < m.root.limits.callLimit := by decide
  have hmemory : Operation.spanAll (first :: others) ≤ m.root.limits.toContext.memory := by decide
  have hexact : Operation.sum.FoldsExactly m.root.limits.toContext (first :: others) :=
    Operation.foldsExactly_of_spanAll hoperation hmemory (by decide)
  obtain ⟨result, calls, hdispatch, hsum⟩ := dispatch_folds_exactly .sum "sum" m first others
    [.symbol "rest"] hname hoperation rfl rfl hless hexact
  have hadd : (first.add ⟨true, 250, -2⟩).add ⟨false, 125, -3⟩ = ⟨true, 875, -3⟩ := by decide
  have hvalue : IsSum (first :: others) ⟨true, 875, -3⟩ :=
    .of_add (.of_add (hadd.symm ▸ isSum_singleton _))
  exact ⟨hname, hoperation, rfl, rfl, hless, hexact, result, calls, hdispatch, hsum,
    IsSum.perm hsum hvalue (.refl _)⟩

end QuoteStack
