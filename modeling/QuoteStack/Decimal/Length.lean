/-!
Powers of ten, and the number of digits that a natural number is written with.
-/

namespace QuoteStack.Decimal

/-- The power of ten with a natural exponent. -/
def tenTo (e : Nat) : Nat :=
  Nat.pow 10 e

/-- How many decimal digits a natural number is written with; zero has one. The binary digits give
an estimate that is at most one too low, so long numbers need not be written. -/
def lengthOf (n : Nat) : Nat :=
  let estimate := n.log2 * 1936274 / 6432163
  if tenTo estimate ≤ n && n < tenTo (estimate + 1) then estimate + 1
  else if tenTo (estimate + 1) ≤ n && n < tenTo (estimate + 2) then estimate + 2
  else (Nat.toDigits 10 n).length

/-- A number from `10 ^ k` on and below `10 ^ (k + 1)` has `k + 1` digits. -/
theorem length_toDigits_eq {n k : Nat} (h : tenTo k ≤ n) (h' : n < tenTo (k + 1)) :
    (Nat.toDigits 10 n).length = k + 1 := by
  have upper := (Nat.length_toDigits_le_iff (b := 10) (n := n) (by decide) k.succ_pos).mpr h'
  rcases Nat.eq_zero_or_pos k with rfl | hk
  · have : 0 < (Nat.toDigits 10 n).length := Nat.length_toDigits_pos
    omega
  · have lower : ¬ (Nat.toDigits 10 n).length ≤ k := fun short =>
      Nat.not_lt.mpr h ((Nat.length_toDigits_le_iff (b := 10) (n := n) (by decide) hk).mp short)
    omega

theorem lengthOf_eq (n : Nat) : lengthOf n = (Nat.toDigits 10 n).length := by
  simp only [lengthOf, Bool.and_eq_true, decide_eq_true_eq]
  split
  next h => exact (length_toDigits_eq h.1 h.2).symm
  next =>
    split
    next h => exact (length_toDigits_eq h.1 h.2).symm
    next => rfl

end QuoteStack.Decimal
