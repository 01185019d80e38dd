import Mathlib.Algebra.Order.Field.Power
import Mathlib.Data.Int.Log
import Mathlib.Data.Rat.Floor
import Mathlib.Tactic.Ring
import QuoteStack.Proofs.Decimal.Size

/-!
The rational numbers that decimal numbers stand for. The exponent of the leading digit of a number
other than zero is the integer logarithm of its absolute value, and of the numbers that stand for
the same rational number those with the greater exponents have fewer zeros at their ends.
-/

namespace QuoteStack.Decimal

/-- The rational number that a decimal number stands for. -/
def toRat (x : Decimal) : ℚ :=
  if x.negative then -(x.coefficient * 10 ^ x.exponent) else x.coefficient * 10 ^ x.exponent

/-! ## Powers of ten -/

theorem cast_tenTo (e : Nat) : (tenTo e : ℚ) = 10 ^ (e : Int) := by
  rw [zpow_natCast]
  exact Nat.cast_pow 10 e

theorem zpow_ten_pos (e : Int) : (0 : ℚ) < 10 ^ e :=
  zpow_pos (by norm_num) e

theorem zpow_ten_add (e f : Int) : (10 : ℚ) ^ (e + f) = 10 ^ e * 10 ^ f :=
  zpow_add₀ (by norm_num) e f

/-- A power of ten with any exponent is a quotient of powers with natural exponents. -/
theorem zpow_ten_eq (e : Int) : (10 : ℚ) ^ e = tenTo e.toNat / tenTo (-e).toNat := by
  rw [cast_tenTo, cast_tenTo, ← zpow_sub₀ (by norm_num)]
  congr 1
  omega

theorem zpow_ten_le {e f : Int} (h : e ≤ f) : (10 : ℚ) ^ e ≤ 10 ^ f :=
  zpow_le_zpow_right₀ (by norm_num) h

/-- A rational number between two powers of ten next to each other has the exponent of the lower one
as its logarithm. -/
theorem log_eq {q : ℚ} {e : Int} (hlow : 10 ^ e ≤ q) (hhigh : q < 10 ^ (e + 1)) :
    Int.log 10 q = e := by
  have hpos : 0 < q := (zpow_ten_pos e).trans_le hlow
  have hle := (Int.zpow_le_iff_le_log (b := 10) (by decide) hpos).mp hlow
  have hlt := (Int.lt_zpow_iff_log_lt (b := 10) (by decide) hpos).mp hhigh
  omega

/-! ## Absolute values -/

theorem abs_toRat (x : Decimal) : |x.toRat| = x.coefficient * 10 ^ x.exponent := by
  have hnonneg : (0 : ℚ) ≤ x.coefficient * 10 ^ x.exponent :=
    mul_nonneg (Nat.cast_nonneg _) (zpow_ten_pos _).le
  unfold toRat
  split
  · rw [abs_neg, abs_of_nonneg hnonneg]
  · exact abs_of_nonneg hnonneg

theorem toRat_eq_zero_iff (x : Decimal) : x.toRat = 0 ↔ x.coefficient = 0 := by
  rw [← abs_eq_zero, abs_toRat, mul_eq_zero, Nat.cast_eq_zero,
    or_iff_left (zpow_ten_pos x.exponent).ne']

theorem abs_toRat_pos {x : Decimal} (hx : x.coefficient ≠ 0) : 0 < |x.toRat| :=
  abs_pos.mpr ((toRat_eq_zero_iff x).not.mpr hx)

/-- A number with the sign of a quotient is as far from it as its absolute value is from that of the
quotient. -/
theorem abs_toRat_sub_div {x y z : Decimal} (hsign : z.negative = (x.negative != y.negative)) :
    |z.toRat - x.toRat / y.toRat| = abs (|z.toRat| - |x.toRat / y.toRat|) := by
  rw [abs_div, abs_toRat, abs_toRat, abs_toRat]
  unfold toRat
  rw [hsign]
  cases x.negative <;> cases y.negative <;>
    simp only [bne_self_eq_false, Bool.false_bne, Bool.true_bne, Bool.not_false, if_true,
      Bool.false_eq_true, if_false, neg_div, div_neg, neg_neg]
  · rw [← neg_sub', abs_neg]
  · rw [← neg_sub', abs_neg]

theorem toRat_eq_div_of_abs {x y z : Decimal} (hsign : z.negative = (x.negative != y.negative))
    (habs : |z.toRat| = |x.toRat / y.toRat|) : z.toRat = x.toRat / y.toRat := by
  have hzero := abs_toRat_sub_div hsign
  rw [habs, sub_self, abs_zero, abs_eq_zero] at hzero
  exact sub_eq_zero.mp hzero

/-! ## Leading digits -/

/-- The leading digit of a number other than zero stands where the logarithm tells. -/
theorem log_abs_toRat {x : Decimal} (hx : x.coefficient ≠ 0) :
    Int.log 10 |x.toRat| = x.leading := by
  have hcount := x.digitCount_pos
  have hscale := (zpow_ten_pos x.exponent).le
  have hlow : (tenTo (x.digitCount - 1) : ℚ) ≤ x.coefficient :=
    Nat.cast_le.mpr (tenTo_le_of_ne_zero hx)
  have hhigh : (x.coefficient : ℚ) < tenTo x.digitCount :=
    Nat.cast_lt.mpr (lt_tenTo_lengthOf x.coefficient)
  rw [abs_toRat]
  refine log_eq ?_ ?_
  · calc (10 : ℚ) ^ x.leading = tenTo (x.digitCount - 1) * 10 ^ x.exponent := by
          rw [cast_tenTo, ← zpow_ten_add]
          unfold leading
          congr 1
          omega
      _ ≤ x.coefficient * 10 ^ x.exponent := mul_le_mul_of_nonneg_right hlow hscale
  · calc (x.coefficient : ℚ) * 10 ^ x.exponent < tenTo x.digitCount * 10 ^ x.exponent :=
          mul_lt_mul_of_pos_right hhigh (zpow_ten_pos _)
      _ = 10 ^ (x.leading + 1) := by
          rw [cast_tenTo, ← zpow_ten_add]
          unfold leading
          congr 1
          omega

/-! ## Numbers that stand for the same rational number -/

/-- A number whose coefficient does not end in a zero has the greatest exponent of all that stand
for the same rational number. -/
theorem exponent_le_of_not_dvd {x z : Decimal} (hlast : ¬ 10 ∣ x.coefficient)
    (hsame : |z.toRat| = |x.toRat|) : z.exponent ≤ x.exponent := by
  by_contra hless
  obtain ⟨k, hk⟩ : ∃ k : Nat, z.exponent = x.exponent + (k + 1 : Nat) :=
    ⟨(z.exponent - x.exponent - 1).toNat, by omega⟩
  rw [abs_toRat, abs_toRat, hk, zpow_ten_add, ← cast_tenTo, mul_left_comm, mul_comm] at hsame
  have hcoefficient := mul_right_cancel₀ (zpow_ten_pos x.exponent).ne' hsame
  have hdvd : x.coefficient = z.coefficient * tenTo (k + 1) := by
    exact_mod_cast hcoefficient.symm
  exact hlast (hdvd ▸ Dvd.dvd.mul_left (Dvd.intro_left (tenTo k) rfl) _)

end QuoteStack.Decimal
