import Mathlib.Algebra.BigOperators.Group.List.Basic
import Mathlib.Algebra.Ring.Parity
import Mathlib.Order.Bounds.Basic
import QuoteStack.Proofs.Decimal.Rational

/-!
Sums, differences and products of decimal numbers in exact arithmetic. They stand for the sums,
differences and products of the rational numbers that their operands stand for. A decimal number is
known from three things: the rational number that it stands for, its exponent, and whether it is a
zero with a minus sign; hence the sum and the product of several numbers do not depend on their
order. The sums and differences of numbers that can be stored are exact wherever there are any.
-/

namespace QuoteStack.Decimal

/-- A zero with a minus sign. -/
def IsNegativeZero (x : Decimal) : Prop :=
  x.negative = true ∧ x.coefficient = 0

/-! ## Two numbers -/

theorem toRat_neg (x : Decimal) : x.neg.toRat = -x.toRat := by
  unfold toRat neg
  cases x.negative
  · rfl
  · exact (neg_neg _).symm

theorem magnitudeAt_eq_zero_iff (x : Decimal) (e : Int) :
    x.magnitudeAt e = 0 ↔ x.coefficient = 0 := by
  unfold magnitudeAt
  split
  · next hzero => exact ⟨fun _ => hzero, fun _ => rfl⟩
  · next hne => exact ⟨fun h => absurd h (Nat.mul_ne_zero hne (tenTo_pos _).ne'),
      fun hzero => absurd hzero hne⟩

/-- Counting a number in smaller units does not change it. -/
theorem toRat_eq_unitsAt {x : Decimal} {e : Int} (he : e ≤ x.exponent) :
    x.toRat = x.unitsAt e * 10 ^ e := by
  have hmagnitude : (x.coefficient * 10 ^ x.exponent : ℚ) = x.magnitudeAt e * 10 ^ e := by
    unfold magnitudeAt
    split
    · next hzero => rw [hzero, Nat.cast_zero, zero_mul, zero_mul]
    · rw [Nat.cast_mul, cast_tenTo, mul_assoc, ← zpow_ten_add]
      congr 2
      omega
  unfold toRat unitsAt
  rw [hmagnitude]
  split
  · push_cast
    exact (neg_mul _ _).symm
  · push_cast
    rfl

/-- A number with the sign of a count of units, or any sign if there are none, stands for them. -/
theorem toRat_ofUnits (units : Int) (sign : Bool) (e : Int) :
    toRat ⟨if units = 0 then sign else units < 0, units.natAbs, e⟩ = units * 10 ^ e := by
  have habs : ((units.natAbs : ℕ) : ℚ) = |(units : ℚ)| := by
    rw [Nat.cast_natAbs, Int.cast_abs]
  unfold toRat
  dsimp only
  rw [habs]
  rcases lt_trichotomy units 0 with hneg | hzero | hpos
  · have hcast : (units : ℚ) < 0 := Int.cast_lt_zero.mpr hneg
    rw [if_neg hneg.ne, decide_eq_true hneg, if_pos rfl, abs_of_neg hcast, neg_mul, neg_neg]
  · simp only [hzero, Int.cast_zero, abs_zero, zero_mul, neg_zero, ite_self]
  · have hcast : (0 : ℚ) < units := Int.cast_pos.mpr hpos
    rw [if_neg hpos.ne', decide_eq_false hpos.not_gt, if_neg Bool.false_ne_true, abs_of_pos hcast]

theorem toRat_add (x y : Decimal) : (x.add y).toRat = x.toRat + y.toRat := by
  have hunits : (x.add y).toRat = (x.unitsAt (min x.exponent y.exponent) +
      y.unitsAt (min x.exponent y.exponent) : Int) * 10 ^ min x.exponent y.exponent :=
    toRat_ofUnits _ _ _
  rw [hunits, Int.cast_add, add_mul, ← toRat_eq_unitsAt (min_le_left x.exponent y.exponent),
    ← toRat_eq_unitsAt (min_le_right x.exponent y.exponent)]

/-- Only two zeros with a minus sign have such a sum. -/
theorem isNegativeZero_add_iff (x y : Decimal) :
    (x.add y).IsNegativeZero ↔ x.IsNegativeZero ∧ y.IsNegativeZero := by
  obtain ⟨e, he⟩ : ∃ e, e = min x.exponent y.exponent := ⟨_, rfl⟩
  have hunits (z : Decimal) (hz : z.negative = true) : z.unitsAt e = -z.magnitudeAt e := by
    rw [unitsAt, if_pos hz]
  unfold IsNegativeZero add
  dsimp only
  rw [← he, Int.natAbs_eq_zero, ← magnitudeAt_eq_zero_iff x e, ← magnitudeAt_eq_zero_iff y e]
  constructor
  · rintro ⟨hsign, hsum⟩
    rw [if_pos hsum, Bool.and_eq_true] at hsign
    -- units of one sign add up to zero only if there are none
    rw [hunits x hsign.1, hunits y hsign.2] at hsum
    exact ⟨⟨hsign.1, by omega⟩, hsign.2, by omega⟩
  · rintro ⟨⟨hx, hxzero⟩, hy, hyzero⟩
    have hsum : x.unitsAt e + y.unitsAt e = 0 := by
      rw [hunits x hx, hunits y hy, hxzero, hyzero]
      rfl
    rw [if_pos hsum, hx, hy]
    exact ⟨rfl, hsum⟩

theorem toRat_sub (x y : Decimal) : (x.sub y).toRat = x.toRat - y.toRat := by
  rw [sub, toRat_add, toRat_neg, sub_eq_add_neg]

theorem toRat_mul (x y : Decimal) : (x.mul y).toRat = x.toRat * y.toRat := by
  have hmagnitude : (((x.coefficient * y.coefficient : ℕ) : ℚ) * 10 ^ (x.exponent + y.exponent)) =
      x.coefficient * 10 ^ x.exponent * (y.coefficient * 10 ^ y.exponent) := by
    rw [zpow_ten_add, Nat.cast_mul]
    exact mul_mul_mul_comm _ _ _ _
  unfold toRat mul
  dsimp only
  rw [hmagnitude]
  cases x.negative <;> cases y.negative <;>
    simp only [bne_self_eq_false, Bool.false_bne, Bool.true_bne, Bool.not_false, if_true,
      Bool.false_eq_true, if_false, neg_mul, mul_neg, neg_neg]

/-! ## What a number is known from -/

/-- Numbers with one exponent that stand for the same rational number have one coefficient. -/
theorem coefficient_eq_of_toRat_eq {x y : Decimal} (hexponent : x.exponent = y.exponent)
    (hvalue : x.toRat = y.toRat) : x.coefficient = y.coefficient := by
  have habs := congrArg abs hvalue
  rw [abs_toRat, abs_toRat, hexponent] at habs
  exact_mod_cast mul_right_cancel₀ (zpow_ten_pos y.exponent).ne' habs

/-- Numbers other than zero that stand for the same rational number have one sign. -/
theorem negative_eq_of_toRat_eq {x y : Decimal} (hx : x.coefficient ≠ 0)
    (hvalue : x.toRat = y.toRat) : x.negative = y.negative := by
  have hsign (z : Decimal) (hz : z.toRat ≠ 0) : z.negative = true ↔ z.toRat < 0 := by
    have habs := abs_pos.mpr hz
    rw [abs_toRat] at habs
    unfold toRat
    cases z.negative <;> simp [habs, habs.le]
  have hne : x.toRat ≠ 0 := (toRat_eq_zero_iff x).not.mpr hx
  rw [Bool.eq_iff_iff, hsign x hne, hsign y (hvalue ▸ hne), hvalue]

/-- Numbers with one exponent that stand for the same rational number are the same, unless one of
them is a zero with a minus sign and the other one is not. -/
theorem eq_of_toRat_eq {x y : Decimal} (hexponent : x.exponent = y.exponent)
    (hvalue : x.toRat = y.toRat) (hzero : x.IsNegativeZero ↔ y.IsNegativeZero) : x = y := by
  have hcoefficient := coefficient_eq_of_toRat_eq hexponent hvalue
  have hnegative : x.negative = y.negative := by
    by_cases hx : x.coefficient = 0
    · have hy : y.coefficient = 0 := hcoefficient ▸ hx
      unfold IsNegativeZero at hzero
      rw [and_iff_left hx, and_iff_left hy] at hzero
      exact Bool.eq_iff_iff.mpr hzero
    · exact negative_eq_of_toRat_eq hx hvalue
  obtain ⟨negative, coefficient, exponent⟩ := x
  obtain rfl : negative = y.negative := hnegative
  obtain rfl : coefficient = y.coefficient := hcoefficient
  obtain rfl : exponent = y.exponent := hexponent
  rfl

/-! ## Several numbers -/

/-- The exponent is the least that one of the numbers has. -/
def IsLeastExponent (numbers : List Decimal) (e : Int) : Prop :=
  IsLeast {f | ∃ x ∈ numbers, x.exponent = f} e

/-- The number is the sum of some numbers: it stands for the sum of what they stand for and has the
least of their exponents, and it is a zero with a minus sign if all of them are. -/
structure IsSum (numbers : List Decimal) (result : Decimal) : Prop where
  toRat_eq : result.toRat = (numbers.map toRat).sum
  exponent : IsLeastExponent numbers result.exponent
  isNegativeZero_iff : result.IsNegativeZero ↔ ∀ x ∈ numbers, x.IsNegativeZero

/-- The number is the difference of a first number and all others: it stands for the difference of
what they stand for, and has the least of their exponents. -/
structure IsDifference (first : Decimal) (others : List Decimal) (result : Decimal) : Prop where
  toRat_eq : result.toRat = first.toRat - (others.map toRat).sum
  exponent : IsLeastExponent (first :: others) result.exponent

/-- The number is the product of some numbers: it stands for the product of what they stand for, has
the sum of their exponents, and has a minus sign if an odd number of them do. -/
structure IsProduct (numbers : List Decimal) (result : Decimal) : Prop where
  toRat_eq : result.toRat = (numbers.map toRat).prod
  exponent : result.exponent = (numbers.map Decimal.exponent).sum
  negative_iff : result.negative = true ↔ Odd (numbers.countP Decimal.negative)

section
variable {x y z : Decimal} {rest : List Decimal}

theorem isLeastExponent_singleton (x : Decimal) : IsLeastExponent [x] x.exponent := by
  refine ⟨⟨x, List.mem_singleton.mpr rfl, rfl⟩, ?_⟩
  rintro _ ⟨y, hy, rfl⟩
  rw [List.mem_singleton.mp hy]

/-- Two numbers may stand for one that has the lesser of their exponents. -/
theorem IsLeastExponent.cons_cons {e : Int} (h : IsLeastExponent (z :: rest) e)
    (hz : z.exponent = min x.exponent y.exponent) : IsLeastExponent (x :: y :: rest) e := by
  obtain ⟨⟨u, hu, rfl⟩, hleast⟩ := h
  have hfirst : u.exponent ≤ z.exponent := hleast ⟨z, List.mem_cons_self, rfl⟩
  constructor
  · rcases List.mem_cons.mp hu with rfl | hu
    · rcases min_choice x.exponent y.exponent with hmin | hmin
      · exact ⟨x, List.mem_cons_self, (hz.trans hmin).symm⟩
      · exact ⟨y, List.mem_cons_of_mem _ List.mem_cons_self, (hz.trans hmin).symm⟩
    · exact ⟨u, List.mem_cons_of_mem _ (List.mem_cons_of_mem _ hu), rfl⟩
  · rintro _ ⟨v, hv, rfl⟩
    rcases List.mem_cons.mp hv with rfl | hv
    · exact hfirst.trans (hz.le.trans (min_le_left _ _))
    · rcases List.mem_cons.mp hv with rfl | hv
      · exact hfirst.trans (hz.le.trans (min_le_right _ _))
      · exact hleast ⟨v, List.mem_cons_of_mem _ hv, rfl⟩

theorem isSum_singleton (x : Decimal) : IsSum [x] x where
  toRat_eq := by simp
  exponent := isLeastExponent_singleton x
  isNegativeZero_iff := by simp

/-- Adding two numbers first does not change a sum. -/
theorem IsSum.of_add {result : Decimal} (h : IsSum (x.add y :: rest) result) :
    IsSum (x :: y :: rest) result where
  toRat_eq := by
    rw [h.toRat_eq, List.map_cons, List.sum_cons, toRat_add, add_assoc]
    rfl
  exponent := h.exponent.cons_cons rfl
  isNegativeZero_iff := by
    rw [h.isNegativeZero_iff, List.forall_mem_cons, List.forall_mem_cons, List.forall_mem_cons,
      isNegativeZero_add_iff, and_assoc]

theorem isDifference_nil (x : Decimal) : IsDifference x [] x where
  toRat_eq := by simp
  exponent := isLeastExponent_singleton x

/-- Subtracting one of the other numbers first does not change a difference. -/
theorem IsDifference.of_sub {result : Decimal} (h : IsDifference (x.sub y) rest result) :
    IsDifference x (y :: rest) result where
  toRat_eq := by
    rw [h.toRat_eq, List.map_cons, List.sum_cons, toRat_sub, sub_sub]
  exponent := h.exponent.cons_cons rfl

theorem isProduct_singleton (x : Decimal) : IsProduct [x] x where
  toRat_eq := by simp
  exponent := by simp
  negative_iff := by
    cases hx : x.negative <;> simp [hx]

/-- Multiplying two numbers first does not change a product. -/
theorem IsProduct.of_mul {result : Decimal} (h : IsProduct (x.mul y :: rest) result) :
    IsProduct (x :: y :: rest) result where
  toRat_eq := by
    rw [h.toRat_eq, List.map_cons, List.prod_cons, toRat_mul, mul_assoc]
    rfl
  exponent := by
    rw [h.exponent, List.map_cons, List.sum_cons]
    exact add_assoc x.exponent y.exponent _
  negative_iff := by
    have hsign : (x.mul y).negative = (x.negative != y.negative) := rfl
    rw [h.negative_iff, List.countP_cons, List.countP_cons, List.countP_cons, hsign]
    cases x.negative <;> cases y.negative <;> simp [Nat.odd_add, parity_simps]

end

/-! ## Order -/

theorem IsLeastExponent.perm {numbers numbers' : List Decimal} {e e' : Int}
    (h : IsLeastExponent numbers e) (h' : IsLeastExponent numbers' e')
    (hperm : numbers.Perm numbers') : e = e' := by
  have hsame : {f | ∃ x ∈ numbers, x.exponent = f} = {f | ∃ x ∈ numbers', x.exponent = f} := by
    simp only [hperm.mem_iff]
  unfold IsLeastExponent at h
  rw [hsame] at h
  exact h.unique h'

/-- Numbers have one sum, in whatever order they are listed. -/
theorem IsSum.perm {numbers numbers' : List Decimal} {x y : Decimal} (hx : IsSum numbers x)
    (hy : IsSum numbers' y) (hperm : numbers.Perm numbers') : x = y := by
  refine eq_of_toRat_eq (hx.exponent.perm hy.exponent hperm) ?_ ?_
  · rw [hx.toRat_eq, hy.toRat_eq, (hperm.map toRat).sum_eq]
  · rw [hx.isNegativeZero_iff, hy.isNegativeZero_iff]
    simp only [hperm.mem_iff]

/-- Numbers have one product, in whatever order they are listed. -/
theorem IsProduct.perm {numbers numbers' : List Decimal} {x y : Decimal} (hx : IsProduct numbers x)
    (hy : IsProduct numbers' y) (hperm : numbers.Perm numbers') : x = y := by
  have hexponent : x.exponent = y.exponent := by
    rw [hx.exponent, hy.exponent, (hperm.map Decimal.exponent).sum_eq]
  have hvalue : x.toRat = y.toRat := by
    rw [hx.toRat_eq, hy.toRat_eq, (hperm.map toRat).prod_eq]
  have hnegative : x.negative = true ↔ y.negative = true := by
    rw [hx.negative_iff, hy.negative_iff, hperm.countP_eq]
  refine eq_of_toRat_eq hexponent hvalue ?_
  unfold IsNegativeZero
  rw [hnegative, coefficient_eq_of_toRat_eq hexponent hvalue]

/-! ## Numbers that can be stored -/

/-- The number can be stored. -/
def IsStored (x : Decimal) : Prop :=
  Range.stored.contains x = true

/-- The one digit of a zero stands at its exponent. -/
theorem leading_of_zero {x : Decimal} (hzero : x.coefficient = 0) : x.leading = x.exponent := by
  have hcount : x.digitCount = 1 := by
    simp [digitCount, hzero, lengthOf_eq]
  rw [leading, hcount]
  omega

theorem IsStored.exponent_le {x : Decimal} (h : x.IsStored) :
    x.exponent ≤ Range.stored.greatest := by
  have hcount := x.digitCount_pos
  have hleading := (Range.contains_iff.mp h).2
  unfold leading at hleading
  omega

/-- A number with an exponent of a range is left as it is, or there is no result. -/
theorem Range.contains_of_fit {range : Range} {x z : Decimal} (hleast : range.least ≤ x.exponent)
    (hgreatest : x.exponent ≤ range.greatest) (h : range.fit x = .ok z) :
    z = x ∧ range.contains x = true := by
  have hcontains : range.contains x = true := by
    rw [contains_iff]
    refine ⟨hleast, ?_⟩
    unfold fit at h
    split at h
    · next hzero => exact (leading_of_zero hzero).le.trans hgreatest
    · split at h
      · cases h
      · next hleading => exact Int.not_lt.mp hleading
  rw [fit_eq_of_contains hcontains] at h
  exact ⟨(Except.ok.inj h).symm, hcontains⟩

/-- A sum of numbers that can be stored is exact, and can be stored. -/
theorem IsStored.storedSum {memory : Nat} {x y z : Decimal} (hx : x.IsStored) (hy : y.IsStored)
    (h : x.storedSum memory y = .ok z) : z = x.add y ∧ z.IsStored := by
  unfold Decimal.storedSum at h
  split at h
  · cases h
  · have hleast := (Range.contains_iff.mp hx).1
    have hleast' := (Range.contains_iff.mp hy).1
    obtain ⟨rfl, hcontains⟩ := Range.contains_of_fit (x := x.add y) (le_min hleast hleast')
      ((min_le_left _ _).trans hx.exponent_le) h
    exact ⟨rfl, hcontains⟩

theorem IsStored.neg {x : Decimal} (h : x.IsStored) : x.neg.IsStored :=
  h

/-- Two numbers are not too far apart to be subtracted if they are not so to be added. -/
theorem isTooFar_add_neg {memory : Nat} {x y : Decimal} (h : x.isTooFar memory y = false) :
    (x.add y).isTooFar memory y.neg = false := by
  have hexponent : (x.add y).exponent = min x.exponent y.exponent := rfl
  have hneg : y.neg.exponent = y.exponent := rfl
  rcases lt_or_ge x.exponent y.exponent with hless | hle
  · -- the second number still is the one with the greater exponent
    have hsum : (x.add y).exponent = x.exponent := hexponent.trans (min_eq_left hless.le)
    unfold isTooFar at h ⊢
    rw [hsum, hneg, if_pos hless]
    rw [if_pos hless] at h
    exact h
  · have hsum : (x.add y).exponent = y.exponent := hexponent.trans (min_eq_right hle)
    unfold isTooFar
    simp only [hsum, hneg, bne_self_eq_false, Bool.and_false, Bool.false_and]

/-- Where two numbers that can be stored have a sum, the difference of the sum and the second number
stands for the first one, and has the lesser of both exponents. -/
theorem storedDifference_of_storedSum {memory : Nat} {x y z : Decimal} (hx : x.IsStored)
    (hy : y.IsStored) (h : x.storedSum memory y = .ok z) :
    z.storedDifference memory y = .ok (z.sub y) ∧ (z.sub y).toRat = x.toRat ∧
      (z.sub y).exponent = min x.exponent y.exponent := by
  obtain ⟨rfl, hz⟩ := hx.storedSum hy h
  have hfar : x.isTooFar memory y = false := by
    unfold storedSum at h
    split at h
    · cases h
    · next hnear => exact Bool.eq_false_iff.mpr hnear
  have hvalue : ((x.add y).sub y).toRat = x.toRat := by
    rw [toRat_sub, toRat_add, add_sub_cancel_right]
  have hexponent : ((x.add y).sub y).exponent = min x.exponent y.exponent := by
    show min (min x.exponent y.exponent) y.exponent = _
    rw [min_assoc, min_self]
  have hstored : ((x.add y).sub y).IsStored := by
    rw [IsStored, Range.contains_iff]
    refine ⟨?_, ?_⟩
    · rw [hexponent]
      exact le_min (Range.contains_iff.mp hx).1 (Range.contains_iff.mp hy).1
    · by_cases hzero : ((x.add y).sub y).coefficient = 0
      · rw [leading_of_zero hzero, hexponent]
        exact (min_le_left _ _).trans hx.exponent_le
      · -- the leading digit is where that of the first number is
        have hne : x.coefficient ≠ 0 := by
          rwa [Ne, ← toRat_eq_zero_iff, ← hvalue, toRat_eq_zero_iff]
        rw [← log_abs_toRat hzero, hvalue, log_abs_toRat hne]
        exact (Range.contains_iff.mp hx).2
  refine ⟨?_, hvalue, hexponent⟩
  unfold storedDifference storedSum
  rw [isTooFar_add_neg hfar, if_neg Bool.false_ne_true]
  exact Range.fit_eq_of_contains hstored

end QuoteStack.Decimal
