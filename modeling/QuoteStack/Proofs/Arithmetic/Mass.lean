import QuoteStack.Proofs.Arithmetic.Fold
import QuoteStack.Proofs.Decimal.Size

/-!
How heavy results are. A value weighs what its numbers span, and for each number a margin more, so
that no combination weighs more than the values that it is made of. Hence a fold weighs at most what
its block weighs, and a lack of memory tells of a heavy block or an enormous precision.
-/

namespace QuoteStack

namespace Value

mutual

/-- What a value weighs: the spans of its numbers, each with a margin. -/
def mass (margin : Nat) : Value → Nat
  | .number n => n.span + margin
  | .symbol _ => 0
  | .block items => massAll margin items

/-- What values weigh together. -/
def massAll (margin : Nat) : List Value → Nat
  | [] => 0
  | v :: rest => v.mass margin + massAll margin rest

end

theorem mass_le_of_mem {margin : Nat} {items : List Value} {v : Value} (h : v ∈ items) :
    v.mass margin ≤ massAll margin items := by
  induction items with
  | nil => exact absurd h List.not_mem_nil
  | cons first rest ih =>
    unfold massAll
    rcases List.mem_cons.mp h with rfl | h
    · omega
    · have hrest := ih h
      omega

end Value

/-- The margin that covers what operations on numbers may add to the digits of their operands. -/
def Limits.margin (limits : Limits) : Nat :=
  limits.precision.toNat + 1

/-- A refusal that can arise from values that weigh a size together. -/
def Refusal.CanArise (limits : Limits) (size : Nat) : Refusal → Prop
  | .arithmetic fault => fault.CanArise limits.toContext size
  | .tooDeep v w => v.mass limits.margin + w.mass limits.margin ≤ size
  | .symbols | .kinds _ _ | .lengths _ _ => True

/-- What can arise from a size can arise from a greater one. -/
theorem Refusal.CanArise.mono {limits : Limits} {size size' : Nat} {refusal : Refusal}
    (h : refusal.CanArise limits size) (hle : size ≤ size') : refusal.CanArise limits size' := by
  cases refusal with
  | arithmetic fault =>
    cases fault with
    | memory => exact h.imp id fun hlt => Nat.lt_of_lt_of_le hlt hle
    | _ => exact h
  | tooDeep v w => exact Nat.le_trans h hle
  | _ => trivial

namespace Operation

variable {operation : Operation} {limits : Limits}

theorem span_of_ofNumbers {context : Decimal.Context} {x y result : Decimal}
    (h : operation.ofNumbers context x y = .ok result) :
    result.span ≤ x.span + y.span + context.precision.toNat + 1 := by
  cases operation with
  | sum =>
    have hsum := Decimal.span_of_storedSum h
    omega
  | difference =>
    have hsum := Decimal.span_of_storedSum (y := y.neg) h
    rw [Decimal.span_neg] at hsum
    omega
  | product =>
    have hproduct := Decimal.span_of_storedProduct h
    omega
  | quotient =>
    have hquotient := Decimal.span_of_divide h
    omega

theorem canArise_of_ofNumbers {context : Decimal.Context} {size : Nat} {x y : Decimal}
    {fault : Decimal.ArithmeticFault} (hsize : x.span + y.span ≤ size)
    (h : operation.ofNumbers context x y = .error fault) : fault.CanArise context size := by
  cases operation with
  | sum => exact Decimal.canArise_of_storedSum hsize h
  | difference => exact Decimal.canArise_of_storedSum (y := y.neg) hsize h
  | product =>
    rw [Decimal.overflow_of_fit h]
    trivial
  | quotient => exact Decimal.canArise_of_divide h

/-- The result of values that weigh a size together: it weighs no more than they do, and if there is
none, the reason is one that can arise. -/
def Bears (limits : Limits) (size : Nat) {α : Type} (weight : α → Nat) : Except Refusal α → Prop
  | .ok result => weight result ≤ size
  | .error refusal => refusal.CanArise limits size

namespace Bears

variable {size size' : Nat} {α β : Type} {weight : α → Nat} {result : Except Refusal α}

theorem mono (h : Bears limits size weight result) (hle : size ≤ size') :
    Bears limits size' weight result := by
  cases result with
  | ok v => exact Nat.le_trans h hle
  | error refusal => exact Refusal.CanArise.mono h hle

theorem map {f : α → β} {weight' : β → Nat} (h : Bears limits size weight result)
    (hweight : ∀ v, weight' (f v) = weight v) : Bears limits size weight' (result.map f) := by
  cases result with
  | ok v => exact Nat.le_trans (Nat.le_of_eq (hweight v)) h
  | error refusal => exact h

/-- Going on from a result, what follows may count on its weight. -/
theorem bind {weight' : β → Nat} {f : α → Except Refusal β} (h : Bears limits size weight result)
    (hle : size ≤ size') (hnext : ∀ v, weight v ≤ size → Bears limits size' weight' (f v)) :
    Bears limits size' weight' (result >>= f) := by
  cases result with
  | ok v => exact hnext v h
  | error refusal => exact Refusal.CanArise.mono h hle

end Bears

/-- Combining a value with another one, the result bears what both weigh. -/
def BearsMass (operation : Operation) (limits : Limits) (v : Value) : Prop :=
  ∀ (w : Value) (depth : Nat), Bears limits (v.mass limits.margin + w.mass limits.margin)
    (Value.mass limits.margin) (operation.combine limits depth v w)

theorem bears_combineAll (left right : List Value)
    (hleft : ∀ v ∈ left, operation.BearsMass limits v) (depth : Nat) :
    Bears limits (Value.massAll limits.margin left + Value.massAll limits.margin right)
      (Value.massAll limits.margin) (operation.combineAll limits depth left right) := by
  induction left generalizing right with
  | nil =>
    unfold combineAll
    exact Nat.zero_le _
  | cons v left ih =>
    cases right with
    | nil =>
      unfold combineAll
      exact Nat.zero_le _
    | cons w right =>
      unfold combineAll
      simp only [Value.massAll]
      split
      · show _ + _ ≤ _
        omega
      · -- each pair bears its own share
        have hpair := hleft v List.mem_cons_self w depth
        have hrest := ih right fun v hv => hleft v (List.mem_cons_of_mem _ hv)
        refine hpair.bind (by omega) fun result hresult => ?_
        refine hrest.bind (by omega) fun results hresults => ?_
        show Value.massAll limits.margin (result :: results) ≤ _
        rw [Value.massAll]
        omega

/-- However values are nested, their combination bears what both weigh. -/
theorem bears_combine (operation : Operation) (limits : Limits) (v : Value) :
    operation.BearsMass limits v := by
  induction v with
  | number x =>
    intro w depth
    cases w with
    | number y =>
      unfold combine
      simp only [Value.mass]
      cases hresult : operation.ofNumbers limits.toContext x y with
      | ok result =>
        have hspan := span_of_ofNumbers hresult
        show Value.mass limits.margin (.number result) ≤ _
        rw [Value.mass, Limits.margin]
        omega
      | error fault => exact canArise_of_ofNumbers (by omega) hresult
    | symbol y => simp only [combine]; trivial
    | block right => simp only [combine]; trivial
  | symbol x =>
    intro w depth
    cases w with
    | number y => simp only [combine]; trivial
    | symbol y =>
      unfold combine
      cases operation.ofSymbols x y with
      | some result => exact Nat.zero_le _
      | none => trivial
    | block right => simp only [combine]; trivial
  | block left ih =>
    intro w depth
    cases w with
    | number y => simp only [combine]; trivial
    | symbol y => simp only [combine]; trivial
    | block right =>
      unfold combine
      split
      · trivial
      · -- the items are combined one dispatch deeper
        simp only [Value.mass]
        exact (bears_combineAll left right ih (depth + 1)).map fun items => rfl

/-- A fold bears what all values weigh that it combines. -/
theorem bears_fold (operation : Operation) (limits : Limits) (depth : Nat) (others : List Value)
    (first : Value) :
    Bears limits (first.mass limits.margin + Value.massAll limits.margin others)
      (Value.mass limits.margin) (others.foldlM (operation.combine limits depth) first) := by
  induction others generalizing first with
  | nil => exact Nat.le_refl _
  | cons v rest ih =>
    rw [List.foldlM_cons]
    simp only [Value.massAll]
    refine (bears_combine operation limits first v depth).bind (by omega) fun result hresult => ?_
    exact (ih result).mono (by omega)

end Operation

end QuoteStack
