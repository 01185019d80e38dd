import Mathlib.Data.Nat.Factorization.Basic
import QuoteStack.Arithmetic
import QuoteStack.Proofs.Decimal.Rounding

/-!
What division computes. The quotient is rounded once, as an exact rational number, to a multiple of a
power of ten that depends on its size and on the precision. A quotient that is such a multiple is not
changed, and its exponent comes as near as it can to the difference of the exponents of the operands.
The main statement is `divide_rounds_once`.
-/

namespace QuoteStack.Decimal

/-! ## Grids -/

/-- The least exponent of a quotient of `precision` digits. -/
def leastExponent (precision : Int) : Int :=
  -maxExponent - (precision - 1)

/-- The exponent of the last digit of a quotient: that of the last of `precision` digits, or the least
one. -/
def roundingPlace (precision : Int) (q : ℚ) : Int :=
  max (Int.log 10 q - (precision - 1)) (leastExponent precision)

/-- The rational number is a multiple of a power of ten. -/
def OnGrid (q : ℚ) (place : Int) : Prop :=
  ∃ n : ℕ, q = n * 10 ^ place

/-- A multiple of a power of ten is one of all lower powers. -/
theorem OnGrid.mono {q : ℚ} {place place' : Int} (h : OnGrid q place) (hle : place' ≤ place) :
    OnGrid q place' := by
  obtain ⟨n, rfl⟩ := h
  refine ⟨n * tenTo (place - place').toNat, ?_⟩
  rw [Nat.cast_mul, cast_tenTo, mul_assoc, ← zpow_ten_add]
  congr 2
  omega

/-- Rounding to a multiple of a power of ten changes all other numbers. -/
theorem RoundsTo.onGrid_iff {q : ℚ} {place : Int} {rounded : ℕ}
    (h : RoundsTo (q / 10 ^ place) rounded) : OnGrid q place ↔ q / 10 ^ place = rounded := by
  unfold OnGrid
  simp only [← div_eq_iff (zpow_ten_pos place).ne']
  refine ⟨fun ⟨n, hn⟩ => ?_, fun hrounded => ⟨rounded, hrounded⟩⟩
  rw [hn] at h ⊢
  rw [h.eq_of_natCast]

/-- There are at most `precision` digits from the place of the last one on. -/
theorem lt_zpow_roundingPlace (precision : Int) (q : ℚ) :
    q < 10 ^ (roundingPlace precision q + precision) := by
  refine (Int.lt_zpow_succ_log_self (b := 10) (by decide) q).trans_le (zpow_ten_le ?_)
  unfold roundingPlace
  omega

/-- Where the least exponent is not reached, there are as many digits. -/
theorem zpow_roundingPlace_le {precision : Int} {q : ℚ} (hq : 0 < q)
    (hplace : roundingPlace precision q ≠ leastExponent precision) :
    10 ^ (roundingPlace precision q + (precision - 1)) ≤ q := by
  refine (zpow_ten_le ?_).trans (Int.zpow_log_le_self (b := 10) (by decide) hq)
  unfold roundingPlace at *
  omega

/-! ## Numbers of a precision -/

/-- The number has at most `precision` digits and no exponent below the least one. -/
def Fits (precision : Int) (x : Decimal) : Prop :=
  x.digitCount ≤ precision ∧ leastExponent precision ≤ x.exponent

/-- No number of the precision that stands for the same rational number has an exponent nearer to the
given one. -/
def IsClosest (precision ideal : Int) (x : Decimal) : Prop :=
  x.Fits precision ∧ ∀ z : Decimal, |z.toRat| = |x.toRat| → z.Fits precision →
    (x.exponent - ideal).natAbs ≤ (z.exponent - ideal).natAbs

theorem Fits.mono {precision precision' : Int} {x : Decimal} (h : x.Fits precision)
    (hle : precision ≤ precision') : x.Fits precision' := by
  unfold Fits leastExponent at *
  omega

/-- A number of the precision has no digit behind the place to which its size is rounded. -/
theorem Fits.roundingPlace_le {precision : Int} {x : Decimal} (h : x.Fits precision)
    (hx : x.coefficient ≠ 0) : roundingPlace precision |x.toRat| ≤ x.exponent := by
  obtain ⟨hcount, hleast⟩ := h
  unfold roundingPlace
  rw [log_abs_toRat hx]
  unfold leading
  omega

/-- Above the greatest exponent the absolute value is at least the power of ten that follows. -/
theorem lt_leading_iff {x : Decimal} {e : Int} (hzero : x.coefficient = 0 → x.leading ≤ e) :
    e < x.leading ↔ 10 ^ (e + 1) ≤ |x.toRat| := by
  by_cases hx : x.coefficient = 0
  · have habs : |x.toRat| = 0 := abs_eq_zero.mpr ((toRat_eq_zero_iff x).mpr hx)
    rw [habs]
    exact iff_of_false (not_lt.mpr (hzero hx)) (not_le.mpr (zpow_ten_pos _))
  · have hpow := Int.zpow_le_iff_le_log (b := 10) (x := e + 1) (by decide) (abs_toRat_pos hx)
    rw [log_abs_toRat hx] at hpow
    rw [← Int.add_one_le_iff]
    exact hpow.symm

/-! ## Exact quotients -/

/-- The result is the quotient itself, with the ideal exponent, or the greatest one below it that the
quotient has, or above it that of the place to which quotients are rounded. -/
structure IsExactQuotient (precision : Int) (x y result : Decimal) : Prop where
  sign : result.negative = (x.negative != y.negative)
  value : |result.toRat| = |x.toRat / y.toRat|
  fits : result.Fits precision
  aim : result.exponent = x.exponent - y.exponent ∨
    (result.exponent < x.exponent - y.exponent ∧ ¬ 10 ∣ result.coefficient) ∨
    (x.exponent - y.exponent < result.exponent ∧
      result.exponent = roundingPlace precision |x.toRat / y.toRat|)

namespace IsExactQuotient

variable {precision : Int} {x y result : Decimal}

theorem toRat_eq (h : IsExactQuotient precision x y result) : result.toRat = x.toRat / y.toRat :=
  toRat_eq_div_of_abs h.sign h.value

theorem coefficient_ne_zero (h : IsExactQuotient precision x y result) (hx : x.coefficient ≠ 0)
    (hy : y.coefficient ≠ 0) : result.coefficient ≠ 0 := by
  rw [← (toRat_eq_zero_iff result).ne, ← abs_ne_zero, h.value]
  exact (abs_div_pos hx hy).ne'

theorem leading_eq (h : IsExactQuotient precision x y result) (hx : x.coefficient ≠ 0)
    (hy : y.coefficient ≠ 0) : result.leading = Int.log 10 |x.toRat / y.toRat| := by
  rw [← h.value, log_abs_toRat (h.coefficient_ne_zero hx hy)]

/-- A number that the rounding does not change is a multiple of the power of ten. -/
theorem onGrid (h : IsExactQuotient precision x y result) (hx : x.coefficient ≠ 0)
    (hy : y.coefficient ≠ 0) :
    OnGrid |x.toRat / y.toRat| (roundingPlace precision |x.toRat / y.toRat|) := by
  have hplace := h.fits.roundingPlace_le (h.coefficient_ne_zero hx hy)
  rw [← h.value]
  exact OnGrid.mono ⟨result.coefficient, abs_toRat result⟩ hplace

theorem isClosest (h : IsExactQuotient precision x y result) (hx : x.coefficient ≠ 0)
    (hy : y.coefficient ≠ 0) : IsClosest precision (x.exponent - y.exponent) result := by
  refine ⟨h.fits, fun z hsame hfits => ?_⟩
  rcases h.aim with hideal | ⟨hbelow, hlast⟩ | ⟨habove, hplace⟩
  · omega
  · -- all other numbers have zeros at their ends that this one has not
    have hle := exponent_le_of_not_dvd hlast hsame
    omega
  · have hz : z.coefficient ≠ 0 := by
      rw [← (toRat_eq_zero_iff z).ne, ← abs_ne_zero, hsame, h.value]
      exact (abs_div_pos hx hy).ne'
    have hle := hfits.roundingPlace_le hz
    rw [hsame, h.value, ← hplace] at hle
    omega

end IsExactQuotient

/-- A whole number of units of the last place is the exact quotient when its zeros at the end are
dropped. -/
theorem isExactQuotient_dropZeros {precision : Int} {x y : Decimal} {rounded : ℕ} {place : Int}
    (hplace : place = roundingPlace precision |x.toRat / y.toRat|) (hprecision : 0 < precision)
    (hexact : |x.toRat / y.toRat| = rounded * 10 ^ place) :
    IsExactQuotient precision x y
      ⟨x.negative != y.negative,
        (dropZeros (x.exponent - y.exponent - place).toNat rounded).1,
        place + (dropZeros (x.exponent - y.exponent - place).toNat rounded).2⟩ := by
  obtain ⟨hlimit, hlast⟩ := dropZeros_spec (x.exponent - y.exponent - place).toNat rounded
  have hmul : (dropZeros (x.exponent - y.exponent - place).toNat rounded).1 *
      tenTo (dropZeros (x.exponent - y.exponent - place).toNat rounded).2 = rounded :=
    dropBlocks_mul _ _ rounded
  generalize dropZeros (x.exponent - y.exponent - place).toNat rounded = dropped at *
  obtain ⟨coefficient, count⟩ := dropped
  dsimp only at *
  -- by the choice of the place, there are no more digits than the precision
  have hless : rounded < tenTo precision.toNat := by
    have hbound := lt_zpow_roundingPlace precision |x.toRat / y.toRat|
    rw [← hplace, add_comm, zpow_ten_add, hexact] at hbound
    have hcast := lt_of_mul_lt_mul_right hbound (zpow_ten_pos place).le
    rw [← Int.toNat_of_nonneg hprecision.le, ← cast_tenTo] at hcast
    exact_mod_cast hcast
  have hcount : lengthOf coefficient ≤ precision.toNat := by
    refine (lengthOf_le_iff _ (by omega)).mpr (Nat.lt_of_le_of_lt ?_ hless)
    rw [← hmul]
    exact Nat.le_mul_of_pos_right _ (tenTo_pos count)
  refine ⟨rfl, ?_, ⟨?_, ?_⟩, ?_⟩
  · rw [abs_toRat, hexact, ← hmul]
    dsimp only
    rw [Int.add_comm place, zpow_ten_add, Nat.cast_mul, cast_tenTo, mul_assoc]
  · show (lengthOf coefficient : Int) ≤ precision
    omega
  · show leastExponent precision ≤ place + count
    unfold roundingPlace at hplace
    omega
  · dsimp only
    rw [← hplace]
    -- dropping zeros ends at the ideal exponent, or before it at another digit
    rcases hlast with hall | hlast
    · omega
    · by_cases hideal : place + (count : Int) = x.exponent - y.exponent
      · exact Or.inl hideal
      · have hcases : place + (count : Int) < x.exponent - y.exponent ∨
          (x.exponent - y.exponent < place + (count : Int) ∧ place + (count : Int) = place) := by
          omega
        exact Or.inr (hcases.imp_left fun hbelow => ⟨hbelow, hlast⟩)

/-! ## Rounded quotients -/

/-- The result is the rounded quotient, which is another number than the quotient. A zero is not out
of range, and a result whose leading digit does not stand below the least normal place has all
digits. -/
structure IsInexactQuotient (precision : Int) (x y result : Decimal) : Prop where
  sign : result.negative = (x.negative != y.negative)
  rounds : ∃ rounded : ℕ,
    RoundsTo (|x.toRat / y.toRat| / 10 ^ roundingPlace precision |x.toRat / y.toRat|) rounded ∧
      |result.toRat| = rounded * 10 ^ roundingPlace precision |x.toRat / y.toRat|
  offGrid : ¬ OnGrid |x.toRat / y.toRat| (roundingPlace precision |x.toRat / y.toRat|)
  digits : 10 ^ (-maxExponent) ≤ |result.toRat| → result.digitCount = precision
  zero : result.coefficient = 0 → result.leading ≤ maxExponent

/-- Rounding a number of `precision` digits makes at most the next power of ten of it. -/
theorem RoundsTo.le_tenTo {precision : Int} {q : ℚ} {rounded : ℕ} (hprecision : 0 < precision)
    (h : RoundsTo (q / 10 ^ roundingPlace precision q) rounded) :
    rounded ≤ tenTo precision.toNat := by
  refine h.le_of_le_natCast ?_
  rw [div_le_iff₀ (zpow_ten_pos _), cast_tenTo, ← zpow_ten_add, Int.toNat_of_nonneg hprecision.le,
    add_comm]
  exact (lt_zpow_roundingPlace precision q).le

/-- Where the least exponent is not reached, rounding leaves all digits. -/
theorem RoundsTo.tenTo_le {precision : Int} {q : ℚ} {rounded : ℕ} (hprecision : 0 < precision)
    (hq : 0 < q) (h : RoundsTo (q / 10 ^ roundingPlace precision q) rounded)
    (hplace : roundingPlace precision q ≠ leastExponent precision) :
    tenTo (precision.toNat - 1) ≤ rounded := by
  refine h.le_of_natCast_le ?_
  rw [le_div_iff₀ (zpow_ten_pos _), cast_tenTo, ← zpow_ten_add]
  refine le_trans (zpow_ten_le ?_) (zpow_roundingPlace_le hq hplace)
  omega

/-- What is rounded to zero is rounded at the least exponent. -/
theorem RoundsTo.roundingPlace_eq {precision : Int} {q : ℚ} (hprecision : 0 < precision)
    (hq : 0 < q) (h : RoundsTo (q / 10 ^ roundingPlace precision q) 0) :
    roundingPlace precision q = leastExponent precision := by
  by_contra hplace
  exact absurd (h.tenTo_le hprecision hq hplace) (Nat.not_le.mpr (tenTo_pos _))

/-- What is rounded to a normal number, and not to the next power of ten, has all digits. -/
theorem RoundsTo.lengthOf_eq {precision : Int} {q : ℚ} {rounded : ℕ} (hprecision : 0 < precision)
    (hq : 0 < q) (h : RoundsTo (q / 10 ^ roundingPlace precision q) rounded)
    (hless : rounded < tenTo precision.toNat)
    (hnormal : 10 ^ (-maxExponent) ≤ rounded * (10 : ℚ) ^ roundingPlace precision q) :
    lengthOf rounded = precision.toNat := by
  refine lengthOf_eq_of_bounds (by omega) ?_ hless
  by_cases hleast : roundingPlace precision q = leastExponent precision
  · rw [← div_le_iff₀ (zpow_ten_pos _), ← zpow_sub₀ (by norm_num)] at hnormal
    rw [← Nat.cast_le (α := ℚ), cast_tenTo]
    refine le_trans (zpow_ten_le ?_) hnormal
    unfold leastExponent at hleast
    omega
  · exact h.tenTo_le hprecision hq hleast

theorem isInexactQuotient_of_rounds {precision : Int} {x y : Decimal} {rounded : ℕ} {place : Int}
    (hprecision : 0 < precision) (hx : x.coefficient ≠ 0) (hy : y.coefficient ≠ 0)
    (hplace : place = roundingPlace precision |x.toRat / y.toRat|)
    (hrounds : RoundsTo (|x.toRat / y.toRat| / 10 ^ place) rounded)
    (hoff : ¬ OnGrid |x.toRat / y.toRat| place) :
    IsInexactQuotient precision x y
      (if rounded = tenTo precision.toNat then
        ⟨x.negative != y.negative, tenTo (precision.toNat - 1), place + 1⟩
      else ⟨x.negative != y.negative, rounded, place⟩) := by
  have hq := abs_div_pos hx hy
  subst hplace
  split
  · next hfull =>
    -- rounded up to the next power of ten, one digit more is written one place higher
    refine ⟨rfl, ⟨rounded, hrounds, ?_⟩, hoff, fun _ => ?_, fun hzero => ?_⟩
    · rw [abs_toRat, hfull]
      dsimp only
      rw [cast_tenTo, cast_tenTo, ← zpow_ten_add, ← zpow_ten_add]
      congr 1
      omega
    · have hcount : lengthOf (tenTo (precision.toNat - 1)) = precision.toNat :=
        lengthOf_eq_of_bounds (by omega) le_rfl (tenTo_lt_tenTo (by omega))
      show (lengthOf (tenTo (precision.toNat - 1)) : Int) = precision
      omega
    · exact absurd hzero (tenTo_pos _).ne'
  · next hnotFull =>
    refine ⟨rfl, ⟨rounded, hrounds, abs_toRat _⟩, hoff, fun hnormal => ?_, fun hzero => ?_⟩
    · rw [abs_toRat] at hnormal
      have hcount := hrounds.lengthOf_eq hprecision hq
        (lt_of_le_of_ne (hrounds.le_tenTo hprecision) hnotFull) hnormal
      show (lengthOf rounded : Int) = precision
      omega
    · dsimp only at hzero
      subst hzero
      have hone : lengthOf 0 = 1 := by decide
      have hmax : maxExponent = 999999 := rfl
      unfold leading digitCount
      dsimp only
      rw [hone, hrounds.roundingPlace_eq hprecision hq]
      unfold leastExponent
      omega

/-! ## The quotient to a precision -/

section
variable {precision : Nat} {x y : Decimal}

/-- A quotient is exact and as near to the ideal exponent as it can be, or it is rounded. -/
theorem quotient_spec (hprecision : 0 < precision) (hx : x.coefficient ≠ 0)
    (hy : y.coefficient ≠ 0) :
    ((quotient precision x y).exact = true ∧
        IsExactQuotient precision x y (quotient precision x y).value) ∨
      ((quotient precision x y).exact = false ∧
        IsInexactQuotient precision x y (quotient precision x y).value) := by
  have hq := abs_div_pos hx hy
  have hint : (0 : Int) < precision := Int.natCast_pos.mpr hprecision
  have hlog := log_abs_div hx hy
  unfold quotient
  dsimp only
  obtain ⟨place, hplace⟩ : ∃ place : Int, place =
      max (leadingExponent x.coefficient y.coefficient + (x.exponent - y.exponent) - (precision - 1))
        (Range.ofQuotients precision).least := ⟨_, rfl⟩
  have hround : place = roundingPlace precision |x.toRat / y.toRat| := by
    unfold roundingPlace
    rw [hlog]
    exact hplace
  rw [← hplace, ← hlog]
  split
  · next htiny =>
    -- the quotient is less than a tenth of a unit
    have hsmall : |x.toRat / y.toRat| / 10 ^ place < 1 / 10 := by
      rw [div_lt_iff₀ (zpow_ten_pos place)]
      calc |x.toRat / y.toRat| < 10 ^ (Int.log 10 |x.toRat / y.toRat| + 1) :=
            Int.lt_zpow_succ_log_self (b := 10) (by decide) _
        _ ≤ 10 ^ (place - 1) := zpow_ten_le (by omega)
        _ = 1 / 10 * 10 ^ place := by
            rw [zpow_sub_one₀ (by norm_num)]
            ring
    have hpos : 0 < |x.toRat / y.toRat| / 10 ^ place := div_pos hq (zpow_ten_pos place)
    have hrounds := RoundsTo.zero_of_lt hpos.le (hsmall.trans (by norm_num))
    have hoff : ¬ OnGrid |x.toRat / y.toRat| place := by
      rw [hrounds.onGrid_iff, Nat.cast_zero]
      exact hpos.ne'
    have hinexact := isInexactQuotient_of_rounds hint hx hy hround hrounds hoff
    rw [if_neg (tenTo_pos _).ne] at hinexact
    exact Or.inr ⟨rfl, hinexact⟩
  · have hunits := abs_div_div_zpow x y place
    have hd : 0 < y.coefficient * tenTo (place - (x.exponent - y.exponent)).toNat :=
      Nat.mul_pos (Nat.pos_of_ne_zero hy) (tenTo_pos _)
    generalize x.coefficient * tenTo (x.exponent - y.exponent - place).toNat = n at *
    generalize y.coefficient * tenTo (place - (x.exponent - y.exponent)).toNat = d at *
    have hrounds := roundsTo_roundedQuotient n hd
    have hcast : (d : ℚ) ≠ 0 := Nat.cast_ne_zero.mpr hd.ne'
    rw [← hunits] at hrounds
    split
    · next hexact =>
      refine Or.inl ⟨rfl, isExactQuotient_dropZeros hround hint ?_⟩
      rw [← div_eq_iff (zpow_ten_pos place).ne', hunits, div_eq_iff hcast]
      exact_mod_cast hexact.symm
    · next hinexact =>
      have hoff : ¬ OnGrid |x.toRat / y.toRat| place := by
        rw [hrounds.onGrid_iff, hunits, div_eq_iff hcast]
        exact fun hsame => hinexact (by exact_mod_cast hsame.symm)
      have hrounded := isInexactQuotient_of_rounds hint hx hy hround hrounds hoff
      rw [Int.toNat_natCast] at hrounded
      refine Or.inr ?_
      split
      · next hfull => exact ⟨rfl, by rwa [if_pos hfull] at hrounded⟩
      · next hnotFull => exact ⟨rfl, by rwa [if_neg hnotFull] at hrounded⟩

end

/-! ## Quotients that end -/

/-- A divisor of a multiple of some power of ten divides that of a power no greater than four times
its length. -/
theorem dvd_mul_tenTo_lengthOf {n d k : ℕ} (hd : d ≠ 0) (h : d ∣ n * tenTo k) :
    d ∣ n * tenTo (4 * lengthOf d) := by
  rcases eq_or_ne n 0 with rfl | hn
  · rw [Nat.zero_mul]
    exact dvd_zero d
  have hne (e : ℕ) : n * tenTo e ≠ 0 := Nat.mul_ne_zero hn (tenTo_pos e).ne'
  have hfactors (e p : ℕ) : (n * tenTo e).factorization p =
      n.factorization p + e * (10).factorization p := by
    rw [Nat.factorization_mul hn (tenTo_pos e).ne']
    show n.factorization p + (10 ^ e).factorization p = _
    rw [Nat.factorization_pow]
    rfl
  rw [← Nat.factorization_prime_le_iff_dvd hd (hne k)] at h
  rw [← Nat.factorization_prime_le_iff_dvd hd (hne _)]
  intro p hp
  have hpower := h p hp
  rw [hfactors] at hpower ⊢
  rcases Nat.eq_zero_or_pos ((10).factorization p) with hzero | hpos
  · rw [hzero, Nat.mul_zero] at hpower ⊢
    exact hpower
  · -- the prime divides ten, and the divisor is less than its power
    have hless : d ≤ p ^ (4 * lengthOf d) := by
      calc d ≤ tenTo (lengthOf d) := (lt_tenTo_lengthOf d).le
        _ ≤ (2 ^ 4) ^ lengthOf d := Nat.pow_le_pow_left (by decide) _
        _ = 2 ^ (4 * lengthOf d) := (Nat.pow_mul 2 4 _).symm
        _ ≤ p ^ (4 * lengthOf d) := Nat.pow_le_pow_left hp.two_le _
    have hle : d.factorization p ≤ 4 * lengthOf d := Nat.factorization_le_of_le_pow hless
    exact Nat.le_add_left_of_le (hle.trans (Nat.le_mul_of_pos_right _ hpos))

section
variable {precision : Int} {x y result : Decimal}

/-- The leading digit of a quotient stands at least four digits of the divisor above the last of as
many digits as an exact quotient can have. -/
theorem log_sub_exactLength_le (hx : x.coefficient ≠ 0) (hy : y.coefficient ≠ 0) :
    Int.log 10 |x.toRat / y.toRat| - (exactLength x y - 1) ≤
      x.exponent - y.exponent - 4 * y.digitCount := by
  have hbounds := leadingExponent_bounds x.coefficient y.coefficient
  have hcount := y.digitCount_pos
  rw [log_abs_div hx hy]
  unfold exactLength digitCount at *
  push_cast
  omega

/-- A quotient that ends does so within as many digits as an exact quotient can have. -/
theorem OnGrid.exactLength (hx : x.coefficient ≠ 0) (hy : y.coefficient ≠ 0)
    (hlog : -maxExponent ≤ Int.log 10 |x.toRat / y.toRat|) {place : Int}
    (h : OnGrid |x.toRat / y.toRat| place) :
    OnGrid |x.toRat / y.toRat| (roundingPlace (exactLength x y) |x.toRat / y.toRat|) := by
  have hcast : (y.coefficient : ℚ) ≠ 0 := Nat.cast_ne_zero.mpr hy
  have hcastTen (e : ℕ) : (tenTo e : ℚ) ≠ 0 := Nat.cast_ne_zero.mpr (tenTo_pos e).ne'
  obtain ⟨m, hm⟩ := h
  rw [← div_eq_iff (zpow_ten_pos place).ne', abs_div_div_zpow, div_eq_iff (Nat.cast_ne_zero.mpr
    (Nat.mul_ne_zero hy (tenTo_pos _).ne'))] at hm
  -- the quotient ends, so the divisor divides a multiple of some power of ten
  have hends : y.coefficient ∣ x.coefficient * tenTo (x.exponent - y.exponent - place).toNat :=
    ⟨tenTo (place - (x.exponent - y.exponent)).toNat * m, by
      rw [← Nat.mul_assoc, Nat.mul_comm _ m]
      exact_mod_cast hm⟩
  -- its length bounds the power, and so the place where the quotient ends
  obtain ⟨w, hw⟩ := dvd_mul_tenTo_lengthOf hy hends
  have hgrid : OnGrid |x.toRat / y.toRat| (x.exponent - y.exponent - 4 * y.digitCount) := by
    refine ⟨w, ?_⟩
    have hratio : (x.coefficient : ℚ) / y.coefficient = w / tenTo (4 * y.digitCount) := by
      rw [div_eq_div_iff hcast (hcastTen _), mul_comm (w : ℚ)]
      exact_mod_cast hw
    rw [abs_div_eq, hratio, zpow_sub₀ (by norm_num) (x.exponent - y.exponent), cast_tenTo,
      div_mul_eq_mul_div, mul_div_assoc]
    push_cast
    rfl
  refine hgrid.mono ?_
  have hlast := log_sub_exactLength_le hx hy
  have hcount := x.digitCount_pos
  unfold roundingPlace leastExponent
  unfold Decimal.exactLength at *
  omega

/-- An exact quotient with as many digits as one can have is that of all greater precisions. -/
theorem IsExactQuotient.of_exactLength (hx : x.coefficient ≠ 0) (hy : y.coefficient ≠ 0)
    (h : IsExactQuotient (exactLength x y) x y result)
    (hlog : -maxExponent ≤ Int.log 10 |x.toRat / y.toRat|) (hle : exactLength x y ≤ precision) :
    IsExactQuotient precision x y result := by
  refine ⟨h.sign, h.value, h.fits.mono hle, ?_⟩
  rcases h.aim with hideal | hbelow | ⟨habove, hplace⟩
  · exact Or.inl hideal
  · exact Or.inr (Or.inl hbelow)
  · -- the place of so many digits is never above the ideal exponent
    exfalso
    have hlast := log_sub_exactLength_le hx hy
    unfold roundingPlace leastExponent at hplace
    omega

end

/-- There is no memory for the digits of a quotient only if the precision is enormous and the
quotient does not end, or ends far from one; any other is exact or rounded. -/
theorem quotient?_cases (memory : Nat) {precision : Nat} (hprecision : 0 < precision) {x y : Decimal}
    (hx : x.coefficient ≠ 0) (hy : y.coefficient ≠ 0) :
    (quotient? memory precision x y = none ∧ memory < precision ∧
        ¬ (OnGrid |x.toRat / y.toRat| (roundingPlace precision |x.toRat / y.toRat|) ∧
          (Int.log 10 |x.toRat / y.toRat|).natAbs ≤ maxExponent)) ∨
      ∃ result, quotient? memory precision x y = some result ∧
        (IsExactQuotient precision x y result.value ∨
          IsInexactQuotient precision x y result.value) := by
  have hlength : 0 < exactLength x y := Nat.add_pos_left x.digitCount_pos _
  unfold quotient?
  dsimp only
  by_cases hshort : precision ≤ exactLength x y
  · rw [decide_eq_true hshort, Bool.true_or, if_pos rfl, Nat.min_eq_left hshort]
    exact Or.inr ⟨_, rfl, (quotient_spec hprecision hx hy).imp And.right And.right⟩
  rw [decide_eq_false hshort, Bool.false_or, Nat.min_eq_right (Nat.le_of_not_le hshort)]
  have hspec := quotient_spec hlength hx hy
  by_cases hends : ((quotient (exactLength x y) x y).exact &&
      (quotient (exactLength x y) x y).value.isNormal) = true
  · rw [if_pos hends]
    rw [Bool.and_eq_true] at hends
    rcases hspec with ⟨-, hexact⟩ | ⟨hinexact, -⟩
    · -- what is exact within fewer digits is so within all of the precision
      have hnormal : ((quotient (exactLength x y) x y).value.leading.natAbs : Int) ≤ maxExponent :=
        of_decide_eq_true hends.2
      rw [hexact.leading_eq hx hy] at hnormal
      have hle : (exactLength x y : Int) ≤ precision := by omega
      exact Or.inr ⟨_, rfl, Or.inl (hexact.of_exactLength hx hy (by omega) hle)⟩
    · exact absurd (hends.1.symm.trans hinexact) (by decide)
  · rw [if_neg hends]
    by_cases hlong : memory < precision
    · rw [if_pos hlong]
      -- a quotient that ends, not too far from one, would have been found to be exact
      refine Or.inl ⟨rfl, hlong, fun ⟨hgrid, hnormal⟩ => ?_⟩
      rcases hspec with ⟨hexact, hquotient⟩ | ⟨-, hquotient⟩
      · rw [← hquotient.leading_eq hx hy] at hnormal
        exact hends (by rw [hexact, Bool.true_and]; exact decide_eq_true hnormal)
      · exact hquotient.offGrid (hgrid.exactLength hx hy (by omega))
    · rw [if_neg hlong]
      exact Or.inr ⟨_, rfl, (quotient_spec hprecision hx hy).imp And.right And.right⟩

/-! ## The step of a division -/

/-- The result is the quotient rounded to a multiple of a power of ten: it has the sign of the
quotient and is at most half a unit away from it; if it is another number and not too small, it has
all digits; and if the quotient is such a multiple, it is the quotient, with the exponent nearest to
the difference of the exponents. -/
structure IsQuotient (precision : Int) (x y : Decimal) (rounded : ℕ) (result : Decimal) : Prop where
  sign : result.negative = (x.negative != y.negative)
  magnitude : |result.toRat| = rounded * 10 ^ roundingPlace precision |x.toRat / y.toRat|
  error : |result.toRat - x.toRat / y.toRat| ≤
    10 ^ roundingPlace precision |x.toRat / y.toRat| / 2
  digits : result.toRat ≠ x.toRat / y.toRat → 10 ^ (-maxExponent) ≤ |result.toRat| →
    result.digitCount = precision
  exact : OnGrid |x.toRat / y.toRat| (roundingPlace precision |x.toRat / y.toRat|) →
    result.toRat = x.toRat / y.toRat ∧ IsClosest precision (x.exponent - y.exponent) result

section
variable {precision : Int} {x y result : Decimal}

/-- A result that is the rounded quotient is at most half a unit away from it. -/
theorem abs_sub_div_le {rounded : ℕ} {place : Int}
    (hsign : result.negative = (x.negative != y.negative))
    (hmagnitude : |result.toRat| = rounded * 10 ^ place)
    (hrounds : RoundsTo (|x.toRat / y.toRat| / 10 ^ place) rounded) :
    |result.toRat - x.toRat / y.toRat| ≤ 10 ^ place / 2 := by
  have hscale := zpow_ten_pos place
  calc |result.toRat - x.toRat / y.toRat|
      = abs (|x.toRat / y.toRat| / 10 ^ place - rounded) * 10 ^ place := by
        rw [abs_toRat_sub_div hsign, hmagnitude, abs_sub_comm, ← abs_of_pos hscale, ← abs_mul,
          abs_of_pos hscale, sub_mul, div_mul_cancel₀ _ hscale.ne']
    _ ≤ 1 / 2 * 10 ^ place := mul_le_mul_of_nonneg_right hrounds.near hscale.le
    _ = 10 ^ place / 2 := by ring

/-- An exact quotient is the quotient rounded. -/
theorem IsExactQuotient.isQuotient (hx : x.coefficient ≠ 0) (hy : y.coefficient ≠ 0)
    (h : IsExactQuotient precision x y result) :
    ∃ rounded : ℕ,
      RoundsTo (|x.toRat / y.toRat| / 10 ^ roundingPlace precision |x.toRat / y.toRat|) rounded ∧
        IsQuotient precision x y rounded result := by
  obtain ⟨rounded, hgrid⟩ := h.onGrid hx hy
  have hrounds : RoundsTo
      (|x.toRat / y.toRat| / 10 ^ roundingPlace precision |x.toRat / y.toRat|) rounded := by
    rw [(div_eq_iff (zpow_ten_pos _).ne').mpr hgrid]
    exact roundsTo_natCast rounded
  have hmagnitude := h.value.trans hgrid
  exact ⟨rounded, hrounds, h.sign, hmagnitude, abs_sub_div_le h.sign hmagnitude hrounds,
    fun hother => absurd h.toRat_eq hother, fun _ => ⟨h.toRat_eq, h.isClosest hx hy⟩⟩

/-- So is an inexact one. -/
theorem IsInexactQuotient.isQuotient (h : IsInexactQuotient precision x y result) :
    ∃ rounded : ℕ,
      RoundsTo (|x.toRat / y.toRat| / 10 ^ roundingPlace precision |x.toRat / y.toRat|) rounded ∧
        IsQuotient precision x y rounded result := by
  obtain ⟨rounded, hrounds, hmagnitude⟩ := h.rounds
  exact ⟨rounded, hrounds, h.sign, hmagnitude, abs_sub_div_le h.sign hmagnitude hrounds,
    fun _ => h.digits, fun hgrid => absurd hgrid h.offGrid⟩

end

/-- With a precision of at least one digit and a divisor other than zero, the step of a division
fails if the precision is above the greatest one. Otherwise it gives a zero for a zero, with the
difference of the exponents as far as exponents of quotients go. For any other dividend it gives the
quotient rounded once; or it fails, because the rounded quotient is too large, or because there is no
memory for so many digits and the quotient does not end, or ends far from one. -/
theorem divide_rounds_once (name : String) {context : Context} {x y : Decimal}
    (hlow : 1 ≤ context.precision) (hy : y.coefficient ≠ 0) :
    let precision := context.precision
    let step := (quotientOperator name).numbers context x y
    let place := roundingPlace precision |x.toRat / y.toRat|
    if maxPrecision < precision then
      step = .error (.arithmetic
        (if isMachineInteger precision then .precision else .precisionSize))
    else if x.coefficient = 0 then
      step = .ok ⟨x.negative != y.negative, 0,
        min (max (x.exponent - y.exponent) (leastExponent precision)) maxExponent⟩
    else
      (step = .error (.arithmetic .memory) ∧ context.memory < precision ∧
        ¬ (OnGrid |x.toRat / y.toRat| place ∧
          (Int.log 10 |x.toRat / y.toRat|).natAbs ≤ maxExponent)) ∨
      ∃ rounded : ℕ, RoundsTo (|x.toRat / y.toRat| / 10 ^ place) rounded ∧
        if 10 ^ (maxExponent + 1) ≤ rounded * (10 : ℚ) ^ place then
          step = .error (.arithmetic .overflow)
        else ∃ result, step = .ok result ∧ IsQuotient precision x y rounded result := by
  intro precision step place
  have hstep : step = (divide context x y).mapError .arithmetic := rfl
  by_cases hhigh : maxPrecision < precision
  · rw [if_pos hhigh, hstep, divide_of_lt hhigh]
    rfl
  rw [if_neg hhigh]
  rw [divide_of_le hlow (Int.not_lt.mp hhigh) hy] at hstep
  by_cases hx : x.coefficient = 0
  · rw [if_pos hx] at hstep ⊢
    exact hstep
  rw [if_neg hx] at hstep ⊢
  have hnat : (precision.toNat : Int) = precision := Int.toNat_of_nonneg (by omega)
  have hpositive : 0 < precision.toNat := by omega
  have hcases := quotient?_cases context.memory hpositive hx hy
  rw [hnat] at hcases
  rcases hcases with ⟨hnone, hlong, hfar⟩ | ⟨result, hsome, hresult⟩
  · rw [hnone] at hstep
    exact Or.inl ⟨hstep, by omega, hfar⟩
  rw [hsome] at hstep
  dsimp only at hstep
  obtain ⟨rounded, hrounds, hquotient⟩ : ∃ rounded : ℕ,
      RoundsTo (|x.toRat / y.toRat| / 10 ^ place) rounded ∧
        IsQuotient precision x y rounded result.value :=
    hresult.elim (·.isQuotient hx hy) (·.isQuotient)
  have hzero : result.value.coefficient = 0 → result.value.leading ≤ maxExponent :=
    hresult.elim (fun h hnone => absurd hnone (h.coefficient_ne_zero hx hy)) (·.zero)
  -- what is compared with the greatest exponent is the rounded magnitude
  have hoverflow := lt_leading_iff hzero
  rw [hquotient.magnitude] at hoverflow
  refine Or.inr ⟨rounded, hrounds, ?_⟩
  by_cases hlarge : maxExponent < result.value.leading
  · rw [if_pos (hoverflow.mp hlarge)]
    exact hstep.trans (congrArg _ (if_pos hlarge))
  · rw [if_neg (hoverflow.not.mp hlarge)]
    exact ⟨_, hstep.trans (congrArg _ (if_neg hlarge)), hquotient⟩

/-- Two thirds to three digits are rounded up. -/
theorem divide_rounds_once_two_thirds :
    let context : Context := { precision := 3 }
    let step := (quotientOperator "divide").numbers context (ofNat 2) (ofNat 3)
    1 ≤ context.precision ∧ (ofNat 3).coefficient ≠ 0 ∧
      step = .ok ⟨false, 667, -3⟩ ∧
      ∃ rounded : ℕ,
        RoundsTo (|(ofNat 2).toRat / (ofNat 3).toRat| /
          10 ^ roundingPlace 3 |(ofNat 2).toRat / (ofNat 3).toRat|) rounded ∧
        IsQuotient 3 (ofNat 2) (ofNat 3) rounded ⟨false, 667, -3⟩ := by
  intro context step
  have hlow : 1 ≤ context.precision := by decide
  have hy : (ofNat 3).coefficient ≠ 0 := by decide
  have hdivide : divide context (ofNat 2) (ofNat 3) = .ok ⟨false, 667, -3⟩ := by decide +kernel
  have hstep : step = .ok ⟨false, 667, -3⟩ := congrArg (Except.mapError Fault.arithmetic) hdivide
  have hrounds := divide_rounds_once "divide" (x := ofNat 2) hlow hy
  rw [if_neg (by decide), if_neg (by decide),
    show (quotientOperator "divide").numbers context _ _ = _ from hstep] at hrounds
  refine ⟨hlow, hy, hstep, ?_⟩
  obtain ⟨hfault, -⟩ | ⟨rounded, hrounded, hresult⟩ := hrounds
  · cases hfault
  · refine ⟨rounded, hrounded, ?_⟩
    split at hresult
    · cases hresult
    · obtain ⟨result, hok, hquotient⟩ := hresult
      cases hok
      exact hquotient

/-- With more digits than the greatest precision nothing is divided, not even by one. -/
theorem divide_of_enormous_precision :
    let context : Context := { precision := 1000000000000000000 }
    let step := (quotientOperator "divide").numbers context (ofNat 3) (ofNat 1)
    1 ≤ context.precision ∧ (ofNat 1).coefficient ≠ 0 ∧
      step = .error (.arithmetic .precision) :=
  ⟨by decide, by decide, rfl⟩

end QuoteStack.Decimal
