import Mathlib.Data.List.Forall2
import QuoteStack.Proofs.Arithmetic.Fold
import QuoteStack.Proofs.Decimal.Size

/-!
Which operands arithmetic accepts. A shape is what remains of a value when it is forgotten which
numbers and which symbols it is made of. Values are combined if they have one shape that is not nested
too deep, if the operation has a meaning for the symbols in it, and if no operation on two numbers at
one place fails; the result has the same shape. The main statement is `dispatch_succeeds_iff`.
-/

namespace QuoteStack

/-- What goes on from a result succeeds if there is one from which it does. -/
theorem bind_eq_ok_iff {ε α β : Type} {result : Except ε α} {f : α → Except ε β} {b : β} :
    result >>= f = .ok b ↔ ∃ a, result = .ok a ∧ f a = .ok b := by
  cases result with
  | ok a => exact ⟨fun h => ⟨a, rfl, h⟩, fun ⟨_, hok, h⟩ => Except.ok.inj hok ▸ h⟩
  | error e => exact ⟨nofun, nofun⟩

/-! ## Shapes -/

/-- A number, a symbol, or a block of shapes. -/
inductive Shape where
  | number
  | symbol
  | block (items : List Shape)

namespace Shape

mutual

/-- How many dispatches nest when values of the shape are combined: none for numbers, symbols and
empty blocks, and for any other block one more than for its items. -/
def need : Shape → Nat
  | .number => 0
  | .symbol => 0
  | .block items => needAll items

/-- How many dispatches nest when values of the shapes are combined as the items of blocks. -/
def needAll : List Shape → Nat
  | [] => 0
  | shape :: rest => max (1 + need shape) (needAll rest)

end

mutual

/-- Whether there is a symbol in the shape. -/
def hasSymbol : Shape → Bool
  | .number => false
  | .symbol => true
  | .block items => anySymbol items

/-- Whether there is a symbol in one of the shapes. -/
def anySymbol : List Shape → Bool
  | [] => false
  | shape :: rest => hasSymbol shape || anySymbol rest

end

end Shape

namespace Value

mutual

/-- The shape of a value. -/
def shape : Value → Shape
  | .number _ => .number
  | .symbol _ => .symbol
  | .block items => .block (shapeAll items)

/-- The shapes of values. -/
def shapeAll : List Value → List Shape
  | [] => []
  | v :: rest => shape v :: shapeAll rest

end

/-- The number at the end of a path, which tells for each block what item to go on with. -/
def numberAt? : List Nat → Value → Option Decimal
  | [], .number x => some x
  | i :: path, .block items => items[i]?.bind (numberAt? path)
  | _, _ => none

theorem shapeAll_eq_iff {left right : List Value} :
    shapeAll left = shapeAll right ↔ List.Forall₂ (fun v w => v.shape = w.shape) left right := by
  induction left generalizing right with
  | nil => cases right <;> simp [shapeAll]
  | cons v left ih => cases right <;> simp [shapeAll, ih]

/-- Blocks have the same shape if they are equally long and their items have the same pair by
pair. -/
theorem shape_block_eq_iff {left right : List Value} :
    (block left).shape = (block right).shape ↔
      List.Forall₂ (fun v w => v.shape = w.shape) left right := by
  simp only [shape, Shape.block.injEq, shapeAll_eq_iff]

@[simp] theorem numberAt?_block_nil (path : List Nat) : numberAt? path (.block []) = none := by
  cases path <;> rfl

/-- Values of one shape have numbers at the same places. -/
theorem exists_numberAt? {path : List Nat} {v w : Value} {x : Decimal} (hsame : w.shape = v.shape)
    (hx : v.numberAt? path = some x) : ∃ y, w.numberAt? path = some y := by
  induction path generalizing v w with
  | nil =>
    cases v with
    | number x =>
      cases w with
      | number y => exact ⟨y, rfl⟩
      | symbol y => cases hsame
      | block right => cases hsame
    | symbol x => cases hx
    | block left => cases hx
  | cons i path ih =>
    cases v with
    | number x => cases hx
    | symbol x => cases hx
    | block left =>
      cases w with
      | number y => cases hsame
      | symbol y => cases hsame
      | block right =>
        -- the path goes on in items that stand side by side
        obtain ⟨hlength, hitems⟩ := List.forall₂_iff_get.mp (shape_block_eq_iff.mp hsame)
        obtain ⟨v, hv, hx⟩ := Option.bind_eq_some_iff.mp hx
        obtain ⟨hi, rfl⟩ := List.getElem?_eq_some_iff.mp hv
        have hi' : i < right.length := hlength ▸ hi
        obtain ⟨y, hy⟩ := ih (hitems i hi' hi) hx
        exact ⟨y, Option.bind_eq_some_iff.mpr ⟨_, List.getElem?_eq_getElem hi', hy⟩⟩

/-- The numbers of some values that stand at one place. -/
def numbersAt (path : List Nat) (values : List Value) : List Decimal :=
  values.filterMap (numberAt? path)

theorem numbersAt_cons {path : List Nat} {v : Value} {x : Decimal} (rest : List Value)
    (hx : v.numberAt? path = some x) : numbersAt path (v :: rest) = x :: numbersAt path rest :=
  List.filterMap_cons_some hx

end Value

namespace Operation

open Value

variable {operation : Operation} {limits : Limits} {depth : Nat}

/-! ## What is accepted -/

/-- Where the given number of dispatches is in progress, values of the shape are not nested too deep,
and the operation has a meaning for the symbols in them. -/
def Accepts (operation : Operation) (limits : Limits) (depth : Nat) (shape : Shape) : Prop :=
  (depth : Int) + shape.need < limits.callLimit ∧ (operation = .sum ∨ shape.hasSymbol = false)

theorem Accepts.depth_lt {shape : Shape} (h : operation.Accepts limits depth shape) :
    (depth : Int) < limits.callLimit := by
  have hdepth := h.1
  omega

/-- Accepting the shape of a block is accepting the shapes of its items one dispatch deeper. -/
theorem accepts_block_iff {items : List Value} (hless : (depth : Int) < limits.callLimit) :
    operation.Accepts limits depth (block items).shape ↔
      ∀ v ∈ items, operation.Accepts limits (depth + 1) v.shape := by
  unfold Accepts
  simp only [shape, Shape.need, Shape.hasSymbol]
  induction items with
  | nil => simp [shapeAll, Shape.needAll, Shape.anySymbol, hless]
  | cons v rest ih =>
    simp only [List.forall_mem_cons, ← ih, shapeAll, Shape.needAll, Shape.anySymbol,
      Bool.or_eq_false_iff]
    push_cast
    constructor
    · rintro ⟨hdepth, hsymbols⟩
      exact ⟨⟨by omega, hsymbols.imp_right And.left⟩, by omega, hsymbols.imp_right And.right⟩
    · rintro ⟨⟨hfirst, hsymbols⟩, hothers, hsymbols'⟩
      refine ⟨by omega, ?_⟩
      rcases hsymbols with hsum | hnone
      · exact Or.inl hsum
      · exact hsymbols'.imp_right fun hrest => ⟨hnone, hrest⟩

/-- The operation does not fail on the numbers of two values that stand at one place. -/
def DefinedOn (operation : Operation) (context : Decimal.Context) (v w : Value) : Prop :=
  ∀ path x y, v.numberAt? path = some x → w.numberAt? path = some y →
    ∃ z, operation.ofNumbers context x y = .ok z

/-- The value has at each place the number that the operation makes of those of two values. -/
def IsPointwise (operation : Operation) (context : Decimal.Context) (v w result : Value) : Prop :=
  ∀ path x y, v.numberAt? path = some x → w.numberAt? path = some y →
    ∃ z, operation.ofNumbers context x y = .ok z ∧ result.numberAt? path = some z

/-- What is true of values that have a combination: they have one shape, which is accepted and which
the result has too, and the result has the numbers that the operation makes of theirs. -/
structure IsCombination (operation : Operation) (limits : Limits) (depth : Nat)
    (v w result : Value) : Prop where
  same : w.shape = v.shape
  accepts : operation.Accepts limits depth v.shape
  shape : result.shape = v.shape
  numbers : operation.IsPointwise limits.toContext v w result

section
variable {context : Decimal.Context} {v w result : Value} {left right results : List Value}

/-! ## Numbers of blocks -/

theorem DefinedOn.cons_iff :
    operation.DefinedOn context (.block (v :: left)) (.block (w :: right)) ↔
      operation.DefinedOn context v w ∧
        operation.DefinedOn context (.block left) (.block right) := by
  constructor
  · intro h
    refine ⟨fun path => h (0 :: path), fun path => ?_⟩
    rcases path with _ | ⟨i, path⟩
    · intro x y hx
      cases hx
    · exact h ((i + 1) :: path)
  · rintro ⟨hfirst, hrest⟩ path
    rcases path with _ | ⟨_ | i, path⟩
    · intro x y hx
      cases hx
    · exact hfirst path
    · exact hrest (i :: path)

theorem isPointwise_block_nil :
    operation.IsPointwise context (.block []) (.block right) (.block results) := by
  intro path x y hx
  rw [numberAt?_block_nil] at hx
  cases hx

theorem IsPointwise.cons (hfirst : operation.IsPointwise context v w result)
    (hrest : operation.IsPointwise context (.block left) (.block right) (.block results)) :
    operation.IsPointwise context (.block (v :: left)) (.block (w :: right))
      (.block (result :: results)) := by
  intro path
  rcases path with _ | ⟨_ | i, path⟩
  · intro x y hx
    cases hx
  · exact hfirst path
  · exact hrest (i :: path)

end

/-! ## Combining two values -/

/-- Blocks of which every pair has a combination. -/
theorem isCombination_combineAll (left right results : List Value)
    (hleft : ∀ v ∈ left, ∀ w result, (depth : Int) < limits.callLimit →
      operation.combine limits depth v w = .ok result →
        operation.IsCombination limits depth v w result)
    (hlength : left.length = right.length)
    (h : operation.combineAll limits depth left right = .ok results) :
    shapeAll right = shapeAll left ∧ (∀ v ∈ left, operation.Accepts limits depth v.shape) ∧
      shapeAll results = shapeAll left ∧
      operation.IsPointwise limits.toContext (.block left) (.block right) (.block results) := by
  induction left generalizing right results with
  | nil =>
    obtain rfl := List.length_eq_zero_iff.mp hlength.symm
    unfold combineAll at h
    cases h
    exact ⟨rfl, fun v hv => absurd hv List.not_mem_nil, rfl, isPointwise_block_nil⟩
  | cons v left ih =>
    obtain ⟨w, right, rfl⟩ := List.exists_cons_of_length_eq_add_one hlength.symm
    unfold combineAll at h
    split at h
    · cases h
    · next hroom =>
      obtain ⟨result, hresult, h⟩ := bind_eq_ok_iff.mp h
      obtain ⟨others, hothers, h⟩ := bind_eq_ok_iff.mp h
      cases h
      -- the first pair has been combined, so its dispatch was below the limit
      have hfirst := hleft v List.mem_cons_self w result (by omega) hresult
      obtain ⟨hsame, haccepts, hshape, hnumbers⟩ :=
        ih right others (fun v hv => hleft v (List.mem_cons_of_mem _ hv))
          (Nat.succ.inj hlength) hothers
      refine ⟨?_, List.forall_mem_cons.mpr ⟨hfirst.accepts, haccepts⟩, ?_,
        hfirst.numbers.cons hnumbers⟩
      · simp only [shapeAll, hfirst.same, hsame]
      · simp only [shapeAll, hfirst.shape, hshape]

/-- Blocks of one shape, with items that are combined. -/
theorem exists_combineAll (left right : List Value)
    (hleft : ∀ v ∈ left, ∀ w : Value, w.shape = v.shape → operation.Accepts limits depth v.shape →
      operation.DefinedOn limits.toContext v w →
        ∃ result, operation.combine limits depth v w = .ok result)
    (hsame : shapeAll right = shapeAll left)
    (haccepts : ∀ v ∈ left, operation.Accepts limits depth v.shape)
    (hdefined : operation.DefinedOn limits.toContext (.block left) (.block right)) :
    ∃ results, operation.combineAll limits depth left right = .ok results := by
  induction left generalizing right with
  | nil =>
    unfold combineAll
    exact ⟨[], rfl⟩
  | cons v left ih =>
    cases right with
    | nil => cases hsame
    | cons w right =>
      simp only [shapeAll, List.cons.injEq] at hsame
      rw [DefinedOn.cons_iff] at hdefined
      have hfirst := haccepts v List.mem_cons_self
      obtain ⟨result, hresult⟩ := hleft v List.mem_cons_self w hsame.1 hfirst hdefined.1
      obtain ⟨results, hresults⟩ := ih right (fun v hv => hleft v (List.mem_cons_of_mem _ hv))
        hsame.2 (fun v hv => haccepts v (List.mem_cons_of_mem _ hv)) hdefined.2
      have hroom : ¬ limits.callLimit ≤ depth := Int.not_le.mpr hfirst.depth_lt
      unfold combineAll
      rw [if_neg hroom, hresult]
      simp only [bind, Except.bind, hresults]
      exact ⟨_, rfl⟩

/-- The symbols of two values are combined only by a sum. -/
theorem combine_symbol_eq_ok_iff (x y : String) (result : Value) :
    operation.combine limits depth (.symbol x) (.symbol y) = .ok result ↔
      operation = .sum ∧ result = .symbol (x ++ y) := by
  unfold combine
  cases operation <;> simp [ofSymbols, eq_comm]

theorem combine_number_eq_ok_iff (x y : Decimal) (result : Value) :
    operation.combine limits depth (.number x) (.number y) = .ok result ↔
      ∃ z, operation.ofNumbers limits.toContext x y = .ok z ∧ result = .number z := by
  unfold combine
  cases operation.ofNumbers limits.toContext x y <;> simp [eq_comm]

/-- Values that have a combination. -/
theorem isCombination_of_combine (v w result : Value) (hless : (depth : Int) < limits.callLimit)
    (h : operation.combine limits depth v w = .ok result) :
    operation.IsCombination limits depth v w result := by
  induction v generalizing w result depth with
  | number x =>
    cases w with
    | number y =>
      obtain ⟨z, hz, rfl⟩ := (combine_number_eq_ok_iff x y result).mp h
      refine ⟨rfl, ⟨by simpa [shape, Shape.need] using hless, Or.inr rfl⟩, rfl, fun path => ?_⟩
      cases path with
      | nil =>
        rintro _ _ ⟨⟩ ⟨⟩
        exact ⟨z, hz, rfl⟩
      | cons i path =>
        intro _ _ hnumber
        cases hnumber
    | symbol y => simp [combine] at h
    | block right => simp [combine] at h
  | symbol x =>
    cases w with
    | number y => simp [combine] at h
    | symbol y =>
      obtain ⟨hsum, rfl⟩ := (combine_symbol_eq_ok_iff x y result).mp h
      refine ⟨rfl, ⟨by simpa [shape, Shape.need] using hless, Or.inl hsum⟩, rfl, fun path => ?_⟩
      intro _ _ hnumber
      cases path <;> cases hnumber
    | block right => simp [combine] at h
  | block left ih =>
    cases w with
    | number y => simp [combine] at h
    | symbol y => simp [combine] at h
    | block right =>
      unfold combine at h
      split at h
      · cases h
      · next hlength =>
        cases hresults : operation.combineAll limits (depth + 1) left right with
        | error refusal =>
          rw [hresults] at h
          cases h
        | ok results =>
          rw [hresults] at h
          cases h
          -- the items are combined one dispatch deeper
          obtain ⟨hsame, haccepts, hshape, hnumbers⟩ :=
            isCombination_combineAll left right results
              (fun v hv w result => ih v hv w result)
              (Classical.not_not.mp hlength) hresults
          exact ⟨congrArg Shape.block hsame, (accepts_block_iff hless).mpr haccepts,
            congrArg Shape.block hshape, hnumbers⟩

/-- Values of one shape that is accepted have a combination where no operation on numbers fails. -/
theorem exists_combine (v w : Value) (hsame : w.shape = v.shape)
    (haccepts : operation.Accepts limits depth v.shape)
    (hdefined : operation.DefinedOn limits.toContext v w) :
    ∃ result, operation.combine limits depth v w = .ok result := by
  induction v generalizing w depth with
  | number x =>
    cases w with
    | number y =>
      obtain ⟨z, hz⟩ := hdefined [] x y rfl rfl
      exact ⟨.number z, (combine_number_eq_ok_iff x y _).mpr ⟨z, hz, rfl⟩⟩
    | symbol y => cases hsame
    | block right => cases hsame
  | symbol x =>
    cases w with
    | number y => cases hsame
    | symbol y =>
      -- of all operations, only the sum accepts symbols
      have hsum : operation = .sum := haccepts.2.resolve_right nofun
      exact ⟨_, (combine_symbol_eq_ok_iff x y _).mpr ⟨hsum, rfl⟩⟩
    | block right => cases hsame
  | block left ih =>
    cases w with
    | number y => cases hsame
    | symbol y => cases hsame
    | block right =>
      have hless := haccepts.depth_lt
      have hlength := (shape_block_eq_iff.mp hsame).length_eq
      obtain ⟨results, hresults⟩ := exists_combineAll left right
        (fun v hv w => ih v hv w) (Shape.block.inj hsame)
        ((accepts_block_iff hless).mp haccepts) hdefined
      unfold combine
      rw [if_neg (not_not.mpr hlength.symm), hresults]
      exact ⟨_, rfl⟩

/-! ## Folding -/

/-- What is true of values that have a fold: they have one shape, which is accepted if there is
anything to combine and which the result has too, and the numbers of the result are the folds of
theirs. -/
theorem shape_of_foldlM (others : List Value) (first result : Value)
    (hless : (depth : Int) < limits.callLimit)
    (h : others.foldlM (operation.combine limits depth) first = .ok result) :
    (∀ v ∈ others, v.shape = first.shape) ∧
      (others ≠ [] → operation.Accepts limits depth first.shape) ∧
      result.shape = first.shape ∧
      ∀ path x, first.numberAt? path = some x → ∃ z,
        (numbersAt path others).foldlM (operation.ofNumbers limits.toContext) x = .ok z ∧
          result.numberAt? path = some z := by
  induction others generalizing first with
  | nil =>
    obtain rfl := Except.ok.inj h
    exact ⟨fun v hv => absurd hv List.not_mem_nil, fun hne => absurd rfl hne, rfl,
      fun path x hx => ⟨x, rfl, hx⟩⟩
  | cons w rest ih =>
    rw [List.foldlM_cons] at h
    obtain ⟨mid, hmid, hrest⟩ := bind_eq_ok_iff.mp h
    have hpair := isCombination_of_combine first w mid hless hmid
    obtain ⟨hsame, -, hshape, hnumbers⟩ := ih mid hrest
    rw [hpair.shape] at hsame hshape
    refine ⟨List.forall_mem_cons.mpr ⟨hpair.same, hsame⟩, fun _ => hpair.accepts, hshape, ?_⟩
    -- at each place the fold goes on from the number that the first two make
    intro path x hx
    obtain ⟨y, hy⟩ := exists_numberAt? hpair.same hx
    obtain ⟨z, hz, hzmid⟩ := hpair.numbers path x y hx hy
    obtain ⟨z', hfold, hz'⟩ := hnumbers path z hzmid
    refine ⟨z', ?_, hz'⟩
    rw [numbersAt_cons rest hy, List.foldlM_cons, hz]
    exact hfold

/-- Values of one shape that is accepted have a fold where no operation on numbers fails. -/
theorem exists_foldlM (others : List Value) (first : Value)
    (hless : (depth : Int) < limits.callLimit) (hsame : ∀ v ∈ others, v.shape = first.shape)
    (haccepts : operation.Accepts limits depth first.shape)
    (hdefined : ∀ path x, first.numberAt? path = some x → ∃ z,
      (numbersAt path others).foldlM (operation.ofNumbers limits.toContext) x = .ok z) :
    ∃ result, others.foldlM (operation.combine limits depth) first = .ok result := by
  induction others generalizing first with
  | nil => exact ⟨first, rfl⟩
  | cons w rest ih =>
    obtain ⟨hw, hrest⟩ := List.forall_mem_cons.mp hsame
    -- at each place the fold goes on from the number that the first two make
    have hstep : ∀ path x y, first.numberAt? path = some x → w.numberAt? path = some y →
        ∃ z, operation.ofNumbers limits.toContext x y = .ok z ∧ ∃ z',
          (numbersAt path rest).foldlM (operation.ofNumbers limits.toContext) z = .ok z' := by
      intro path x y hx hy
      obtain ⟨z', hfold⟩ := hdefined path x hx
      rw [numbersAt_cons rest hy, List.foldlM_cons] at hfold
      obtain ⟨z, hz, hfold⟩ := bind_eq_ok_iff.mp hfold
      exact ⟨z, hz, z', hfold⟩
    obtain ⟨mid, hmid⟩ := exists_combine first w hw haccepts fun path x y hx hy =>
      (hstep path x y hx hy).imp fun _ => And.left
    have hpair := isCombination_of_combine first w mid hless hmid
    have hnumbers : ∀ path x, mid.numberAt? path = some x → ∃ z,
        (numbersAt path rest).foldlM (operation.ofNumbers limits.toContext) x = .ok z := by
      intro path z hz
      obtain ⟨x, hx⟩ := exists_numberAt? hpair.shape.symm hz
      obtain ⟨y, hy⟩ := exists_numberAt? hw hx
      obtain ⟨z₁, hz₁, hmid₁⟩ := hpair.numbers path x y hx hy
      obtain ⟨z₂, hz₂, hfold⟩ := hstep path x y hx hy
      rw [Option.some.inj (hz.symm.trans hmid₁), Except.ok.inj (hz₁.symm.trans hz₂)]
      exact hfold
    obtain ⟨result, hresult⟩ := ih mid (hpair.shape ▸ hrest) (hpair.shape ▸ haccepts) hnumbers
    refine ⟨result, ?_⟩
    rw [List.foldlM_cons, hmid]
    exact hresult

/-- Dispatching an operator on a block goes the way of the fold of its items. -/
theorem endsAs_dispatch {name : String} {m : Machine} {first : Value} {others rest : List Value}
    (hown : operation.Owns name m) (hstack : m.stack = .block (first :: others) :: rest)
    (hless : (m.root.depth : Int) < m.root.limits.callLimit) :
    (m.dispatch name).EndsAs { m with stack := rest } name
      (others.foldlM (operation.combine m.root.limits m.root.depth) first) Machine.finish := by
  rw [Machine.dispatch_pop hown hstack hless]
  exact .leave (endsAs_foldFrom others first (fun result => .push result .done)
    (m.inside name rest) hown rfl)

/-- Sums, products and differences fail only because the result is too large, or because there is no
memory for it. A product with digits below the least exponent does not fail, but is rounded. -/
theorem overflow_or_memory_of_ofNumbers {context : Decimal.Context} {x y : Decimal}
    {fault : Decimal.ArithmeticFault} (hexact : operation ≠ .quotient)
    (h : operation.ofNumbers context x y = .error fault) :
    fault = .overflow ∨ fault = .memory := by
  have hsum (y : Decimal) (h : x.storedSum context.memory y = .error fault) :
      fault = .overflow ∨ fault = .memory := by
    unfold Decimal.storedSum at h
    split at h
    · exact Or.inr (Except.error.inj h).symm
    · exact Or.inl (Decimal.overflow_of_fit h)
  cases operation with
  | sum => exact hsum y h
  | product => exact Or.inl (Decimal.overflow_of_fit h)
  | quotient => exact absurd rfl hexact
  | difference => exact hsum y.neg h

end Operation

/-- Where one of the eight names means its operator, dispatching it below the limit on a block of two
or more items succeeds if and only if all items have one shape, which is not nested too deep and has
no symbols unless the operation is the sum, and at every place where there are numbers no operation
on two numbers fails as they are folded. The result has the same shape, and at every place the fold
of the numbers there. Sums, products and differences of numbers fail only because they are too large,
or because there is no memory for them. -/
theorem dispatch_succeeds_iff (operation : Operation) (name : String) (m : Machine)
    (first second : Value) (others rest : List Value) (hname : name ∈ operation.names)
    (hown : m.find? name = Builtin.cells.lookup name)
    (hstack : m.stack = .block (first :: second :: others) :: rest)
    (hless : (m.root.depth : Int) < m.root.limits.callLimit) :
    ((m.dispatch name).fault? = none ↔
      (∀ v ∈ second :: others, v.shape = first.shape) ∧
      (m.root.depth : Int) + first.shape.need < m.root.limits.callLimit ∧
      (operation = .sum ∨ first.shape.hasSymbol = false) ∧
      ∀ path x, first.numberAt? path = some x → ∃ z,
        (Value.numbersAt path (second :: others)).foldlM
          (operation.ofNumbers m.root.limits.toContext) x = .ok z) ∧
    ((m.dispatch name).fault? = none → ∃ result,
      (m.dispatch name).machine.stack = result :: rest ∧ result.shape = first.shape ∧
      ∀ path x, first.numberAt? path = some x → ∃ z,
        (Value.numbersAt path (second :: others)).foldlM
          (operation.ofNumbers m.root.limits.toContext) x = .ok z ∧
        result.numberAt? path = some z) ∧
    (operation ≠ .quotient → ∀ x y fault,
      operation.ofNumbers m.root.limits.toContext x y = .error fault →
        fault = .overflow ∨ fault = .memory) := by
  have howns : operation.Owns name m := hown.trans (operation.lookup_cells hname)
  obtain ⟨calls, hdispatch⟩ := Operation.endsAs_dispatch howns hstack hless
  have hok : (m.dispatch name).fault? = none → ∃ result,
      (second :: others).foldlM (operation.combine m.root.limits m.root.depth) first = .ok result ∧
        (m.dispatch name).machine.stack = result :: rest := by
    rw [hdispatch]
    cases (second :: others).foldlM (operation.combine m.root.limits m.root.depth) first with
    | ok result => exact fun _ => ⟨result, rfl, rfl⟩
    | error refusal => exact nofun
  refine ⟨⟨fun hnone => ?_, fun ⟨hsame, hdepth, hsymbols, hnumbers⟩ => ?_⟩, fun hnone => ?_,
    fun hexact x y fault => Operation.overflow_or_memory_of_ofNumbers hexact⟩
  · obtain ⟨result, hresult, -⟩ := hok hnone
    obtain ⟨hsame, haccepts, -, hnumbers⟩ :=
      Operation.shape_of_foldlM (second :: others) first result hless hresult
    obtain ⟨hdepth, hsymbols⟩ := haccepts (List.cons_ne_nil _ _)
    exact ⟨hsame, hdepth, hsymbols, fun path x hx => (hnumbers path x hx).imp fun _ => And.left⟩
  · obtain ⟨result, hresult⟩ :=
      Operation.exists_foldlM (second :: others) first hless hsame ⟨hdepth, hsymbols⟩ hnumbers
    rw [hdispatch, hresult]
    rfl
  · obtain ⟨result, hresult, hstack⟩ := hok hnone
    obtain ⟨-, -, hshape, hnumbers⟩ :=
      Operation.shape_of_foldlM (second :: others) first result hless hresult
    exact ⟨result, hstack, hshape, hnumbers⟩

/-- The sum of two blocks has their shape. -/
theorem dispatch_succeeds_iff_sum_of_blocks :
    let number (n : Nat) : Value := .number (.ofNat n)
    let first : Value := .block [number 1, .symbol "a"]
    let second : Value := .block [number 10, .symbol "b"]
    let m : Machine := { Machine.new {} with stack := [.block [first, second], number 5] }
    "sum" ∈ Operation.sum.names ∧ m.find? "sum" = Builtin.cells.lookup "sum" ∧
      m.stack = [.block [first, second], number 5] ∧
      (m.root.depth : Int) < m.root.limits.callLimit ∧ (m.dispatch "sum").fault? = none ∧
      second.shape = first.shape ∧ first.shape.need = 1 ∧ ∃ result,
        (m.dispatch "sum").machine.stack = [result, number 5] ∧
          result.shape = .block [.number, .symbol] := by
  intro number first second m
  have hname : "sum" ∈ Operation.sum.names := by decide
  have hless : (m.root.depth : Int) < m.root.limits.callLimit := by decide
  obtain ⟨hiff, hresult, -⟩ :=
    dispatch_succeeds_iff .sum "sum" m first second [] [number 5] hname rfl rfl hless
  have hok : (m.dispatch "sum").fault? = none := rfl
  obtain ⟨hsame, -⟩ := hiff.mp hok
  obtain ⟨result, hstack, hshape, -⟩ := hresult hok
  exact ⟨hname, rfl, rfl, hless, hok, hsame second List.mem_cons_self, rfl, result, hstack, hshape⟩

/-- Two numbers have one shape, and yet there is no product of numbers that are too large. -/
theorem dispatch_product_of_large_numbers :
    let first : Value := .number ⟨false, 9, 999999999999999999⟩
    let second : Value := .number ⟨false, 9, 0⟩
    let m : Machine := { Machine.new {} with stack := [.block [first, second]] }
    m.find? "mul" = Builtin.cells.lookup "mul" ∧ (m.root.depth : Int) < m.root.limits.maxDepth ∧
      second.shape = first.shape ∧ first.shape.hasSymbol = false ∧
      (m.root.depth : Int) + first.shape.need < m.root.limits.maxDepth ∧
      (m.dispatch "mul").fault? = some (.external (.arithmetic .overflow)) := by
  intro first second m
  refine ⟨rfl, by decide, rfl, rfl, by decide, ?_⟩
  rfl

end QuoteStack
