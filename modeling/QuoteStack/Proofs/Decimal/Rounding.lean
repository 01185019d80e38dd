import Mathlib.Algebra.Order.Field.Basic
import Mathlib.Tactic.Linarith
import QuoteStack.Proofs.Decimal.Rational

/-!
Rounding to whole numbers and dropping zeros, in exact arithmetic. The rounded quotient of natural
numbers is the whole number nearest to the quotient, of two such the even one; the zeros dropped at
the end of a coefficient are all that there are, or as many as are allowed; and the exponent of the
leading digit of a quotient is its integer logarithm.
-/

namespace QuoteStack.Decimal

/-! ## Rounding to a whole number -/

/-- The natural number is the nonnegative rational number rounded, a half to the even neighbour. -/
structure RoundsTo (q : ℚ) (n : ℕ) : Prop where
  near : |q - n| ≤ 1 / 2
  even : |q - n| = 1 / 2 → Even n

namespace RoundsTo

variable {q : ℚ} {n k : ℕ}

/-- Rounding does not pass a whole number from above. -/
theorem le_of_natCast_le (h : RoundsTo q n) (hk : k ≤ q) : k ≤ n := by
  have hless : (k : ℚ) < (n + 1 : ℕ) := by
    push_cast
    linarith [(abs_le.mp h.near).2]
  exact Nat.lt_succ_iff.mp (Nat.cast_lt.mp hless)

/-- Rounding does not pass a whole number from below. -/
theorem le_of_le_natCast (h : RoundsTo q n) (hk : q ≤ k) : n ≤ k := by
  have hless : (n : ℚ) < (k + 1 : ℕ) := by
    push_cast
    linarith [(abs_le.mp h.near).1]
  exact Nat.lt_succ_iff.mp (Nat.cast_lt.mp hless)

/-- A whole number is rounded to itself only. -/
theorem eq_of_natCast (h : RoundsTo k n) : n = k :=
  Nat.le_antisymm (h.le_of_le_natCast le_rfl) (h.le_of_natCast_le le_rfl)

/-- What is less than a half is rounded to zero. -/
theorem zero_of_lt (hq : 0 ≤ q) (hhalf : q < 1 / 2) : RoundsTo q 0 := by
  have habs : |q - (0 : ℕ)| = q := by rw [Nat.cast_zero, sub_zero, abs_of_nonneg hq]
  exact ⟨habs.trans_le hhalf.le, fun heq => absurd (habs.symm.trans heq) hhalf.ne⟩

end RoundsTo

theorem roundsTo_natCast (n : ℕ) : RoundsTo n n := by
  constructor <;> norm_num

/-- What is rounded off is at most half of the divisor, and half of it only at an even number. -/
theorem two_mul_natAbs_sub_le (n : ℕ) {d : ℕ} (hd : 0 < d) :
    2 * ((n : ℤ) - roundedQuotient n d * d).natAbs ≤ d ∧
      (2 * ((n : ℤ) - roundedQuotient n d * d).natAbs = d → Even (roundedQuotient n d)) := by
  obtain ⟨q, hq⟩ : ∃ q, q = n / d := ⟨_, rfl⟩
  have hdivision : (n : ℤ) = q * d + (n % d : ℕ) := by
    rw [hq]
    exact_mod_cast (Nat.div_add_mod' n d).symm
  have hless := Nat.mod_lt n hd
  unfold roundedQuotient
  rw [← hq]
  dsimp only
  split
  · -- rounded up: the rest is counted from the next multiple
    next hup =>
    simp only [Bool.or_eq_true, Bool.and_eq_true, decide_eq_true_eq, beq_iff_eq] at hup
    have hsub : (n : ℤ) - ((q + 1 : ℕ) : ℤ) * d = (n % d : ℕ) - d := by
      rw [hdivision]
      push_cast
      ring
    rw [hsub, Nat.even_iff]
    omega
  · next hdown =>
    simp only [Bool.or_eq_true, Bool.and_eq_true, decide_eq_true_eq, beq_iff_eq] at hdown
    have hsub : (n : ℤ) - (q : ℤ) * d = (n % d : ℕ) := by
      rw [hdivision]
      ring
    rw [hsub, Nat.even_iff]
    omega

theorem roundsTo_roundedQuotient (n : ℕ) {d : ℕ} (hd : 0 < d) :
    RoundsTo (n / d) (roundedQuotient n d) := by
  obtain ⟨hle, heven⟩ := two_mul_natAbs_sub_le n hd
  obtain ⟨rest, hrest⟩ : ∃ rest, rest = ((n : ℤ) - roundedQuotient n d * d).natAbs := ⟨_, rfl⟩
  rw [← hrest] at hle heven
  have hpos : (0 : ℚ) < d := Nat.cast_pos.mpr hd
  have habs : |(n : ℚ) / d - roundedQuotient n d| = rest / d := by
    rw [hrest, Nat.cast_natAbs, Int.cast_abs, eq_div_iff hpos.ne', ← abs_of_pos hpos, ← abs_mul,
      abs_of_pos hpos, sub_mul, div_mul_cancel₀ _ hpos.ne']
    push_cast
    rfl
  constructor
  · rw [habs, div_le_div_iff₀ hpos (by norm_num), one_mul, mul_comm]
    exact_mod_cast hle
  · intro hhalf
    rw [habs, div_eq_div_iff hpos.ne' (by norm_num), one_mul, mul_comm] at hhalf
    exact heven (by exact_mod_cast hhalf)

/-- A number between two powers of ten next to each other has as many digits as the upper one has
zeros. -/
theorem lengthOf_eq_of_bounds {n k : ℕ} (hk : 0 < k) (hlow : tenTo (k - 1) ≤ n)
    (hhigh : n < tenTo k) : lengthOf n = k := by
  refine Nat.le_antisymm ((lengthOf_le_iff n hk).mpr hhigh) (Nat.le_of_not_lt fun hshort => ?_)
  have hle := tenTo_le_tenTo (Nat.le_sub_one_of_lt hshort)
  have hless := lt_tenTo_lengthOf n
  omega

/-! ## Dropping zeros -/

/-- Of blocks of zeros of each length below a power of two, so many are dropped that no zero is
left, or as many as are allowed. -/
theorem dropBlocks_spec (lengths limit coefficient : ℕ)
    (h : limit < Nat.pow 2 lengths ∨ ¬ tenTo (Nat.pow 2 lengths) ∣ coefficient) :
    (dropBlocks lengths limit coefficient).2 ≤ limit ∧
      ((dropBlocks lengths limit coefficient).2 = limit ∨
        ¬ 10 ∣ (dropBlocks lengths limit coefficient).1) := by
  induction lengths generalizing limit coefficient with
  | zero =>
    refine ⟨Nat.zero_le _, h.imp (fun hlimit => ?_) id⟩
    exact (Nat.lt_one_iff.mp hlimit).symm
  | succ lengths ih =>
    -- no two blocks of this length can be dropped, so none is left after dropping one
    have hdouble : Nat.pow 2 (lengths + 1) = Nat.pow 2 lengths + Nat.pow 2 lengths :=
      Nat.mul_two _
    rw [hdouble] at h
    unfold dropBlocks
    dsimp only
    split
    · next hdrop =>
      simp only [Bool.and_eq_true, decide_eq_true_eq, beq_iff_eq] at hdrop
      obtain ⟨hfits, hzeros⟩ := hdrop
      obtain ⟨rest, rfl⟩ := Nat.dvd_of_mod_eq_zero hzeros
      rw [Nat.mul_div_cancel_left _ (tenTo_pos _)]
      have hrest := ih (limit - Nat.pow 2 lengths) rest <| h.imp (by omega) fun hndvd hdvd =>
        hndvd (tenTo_add _ _ ▸ Nat.mul_dvd_mul_left _ hdvd)
      exact ⟨by omega, hrest.2.imp (by omega) id⟩
    · next hkeep =>
      simp only [Bool.and_eq_true, decide_eq_true_eq, beq_iff_eq, not_and] at hkeep
      refine ih limit coefficient (Classical.or_iff_not_imp_left.mpr fun hfits hdvd => ?_)
      exact hkeep (Nat.le_of_not_lt hfits) (Nat.mod_eq_zero_of_dvd hdvd)

/-- All zeros at the end are dropped, or as many as are allowed. -/
theorem dropZeros_spec (limit coefficient : ℕ) :
    (dropZeros limit coefficient).2 ≤ limit ∧
      ((dropZeros limit coefficient).2 = limit ∨ ¬ 10 ∣ (dropZeros limit coefficient).1) :=
  dropBlocks_spec _ limit coefficient (Or.inl Nat.lt_log2_self)

/-! ## The leading digit of a quotient -/

/-- The leading digit of a quotient stands where `leadingExponent` tells, or higher. -/
theorem mul_tenTo_le_of_leadingExponent {n : ℕ} (hn : n ≠ 0) (d : ℕ) :
    d * tenTo (leadingExponent n d).toNat ≤ n * tenTo (-leadingExponent n d).toNat := by
  unfold leadingExponent
  dsimp only
  split
  · next hle => exact hle
  · -- one digit less than the lengths differ by is not too many
    exact (mul_tenTo_lt_mul_tenTo hn (by omega)).le

theorem log_natCast_div {n d : ℕ} (hn : n ≠ 0) (hd : d ≠ 0) :
    Int.log 10 ((n : ℚ) / d) = leadingExponent n d := by
  have hpos : (0 : ℚ) < d := Nat.cast_pos.mpr (Nat.pos_of_ne_zero hd)
  have htenTo (e : ℕ) : (0 : ℚ) < tenTo e := Nat.cast_pos.mpr (tenTo_pos e)
  apply log_eq
  · rw [zpow_ten_eq, div_le_div_iff₀ (htenTo _) hpos, mul_comm]
    exact_mod_cast mul_tenTo_le_of_leadingExponent hn d
  · rw [zpow_ten_eq, div_lt_div_iff₀ hpos (htenTo _), mul_comm (tenTo _ : ℚ)]
    exact_mod_cast mul_tenTo_lt_of_leadingExponent n hd

section
variable (x y : Decimal)

theorem abs_div_eq :
    |x.toRat / y.toRat| = x.coefficient / y.coefficient * 10 ^ (x.exponent - y.exponent) := by
  rw [abs_div, abs_toRat, abs_toRat, zpow_sub₀ (by norm_num), mul_div_mul_comm]

/-- The quotient counted in units of a power of ten is one of natural numbers. -/
theorem abs_div_div_zpow (place : Int) :
    |x.toRat / y.toRat| / 10 ^ place =
      (x.coefficient * tenTo (x.exponent - y.exponent - place).toNat : ℕ) /
        (y.coefficient * tenTo (place - (x.exponent - y.exponent)).toNat : ℕ) := by
  rw [abs_div_eq, mul_div_assoc, ← zpow_sub₀ (by norm_num), zpow_ten_eq, neg_sub, div_mul_div_comm]
  push_cast
  rfl

end

section
variable {x y : Decimal}

theorem abs_div_pos (hx : x.coefficient ≠ 0) (hy : y.coefficient ≠ 0) :
    0 < |x.toRat / y.toRat| := by
  rw [abs_div]
  exact div_pos (abs_toRat_pos hx) (abs_toRat_pos hy)

theorem log_abs_div (hx : x.coefficient ≠ 0) (hy : y.coefficient ≠ 0) :
    Int.log 10 |x.toRat / y.toRat| =
      leadingExponent x.coefficient y.coefficient + (x.exponent - y.exponent) := by
  have hratio : (0 : ℚ) < x.coefficient / y.coefficient :=
    div_pos (Nat.cast_pos.mpr (Nat.pos_of_ne_zero hx)) (Nat.cast_pos.mpr (Nat.pos_of_ne_zero hy))
  have hscale := zpow_ten_pos (x.exponent - y.exponent)
  rw [abs_div_eq, ← log_natCast_div hx hy]
  apply log_eq
  · rw [zpow_ten_add]
    exact mul_le_mul_of_nonneg_right (Int.zpow_log_le_self (b := 10) (by decide) hratio) hscale.le
  · rw [Int.add_right_comm, zpow_ten_add]
    exact mul_lt_mul_of_pos_right (Int.lt_zpow_succ_log_self (b := 10) (by decide) _) hscale

end

end QuoteStack.Decimal
