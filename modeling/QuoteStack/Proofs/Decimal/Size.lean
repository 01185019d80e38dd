import QuoteStack.Proofs.Decimal.Numeral
import QuoteStack.Decimal.Division

/-!
How many digits results have. The span of a number counts the digits that it has around the point in
positional notation. Sums and products span at most what their operands span together, and one digit
more; quotients besides that as many as the precision tells. Hence results that span more than there
is memory for come from operands that span as much, or from such a precision.
-/

namespace QuoteStack.Decimal

/-! ## Powers of ten and lengths -/

theorem tenTo_pos (e : Nat) : 0 < tenTo e :=
  Nat.pow_pos (by decide)

theorem tenTo_add (e f : Nat) : tenTo (e + f) = tenTo e * tenTo f :=
  Nat.pow_add 10 e f

theorem tenTo_le_tenTo {e f : Nat} (h : e ≤ f) : tenTo e ≤ tenTo f :=
  Nat.pow_le_pow_right (by decide) h

theorem tenTo_lt_tenTo {e f : Nat} (h : e < f) : tenTo e < tenTo f :=
  Nat.pow_lt_pow_right (by decide) h

theorem lengthOf_le_iff (n : Nat) {k : Nat} (hk : 0 < k) : lengthOf n ≤ k ↔ n < tenTo k := by
  rw [lengthOf_eq]
  exact Nat.length_toDigits_le_iff (by decide) hk

theorem lengthOf_pos (n : Nat) : 0 < lengthOf n := by
  rw [lengthOf_eq]
  exact Nat.length_toDigits_pos

theorem lt_tenTo_lengthOf (n : Nat) : n < tenTo (lengthOf n) :=
  (lengthOf_le_iff n (lengthOf_pos n)).mp (Nat.le_refl _)

/-- A number other than zero is at least the power of ten of its length. -/
theorem tenTo_le_of_ne_zero {n : Nat} (hn : n ≠ 0) : tenTo (lengthOf n - 1) ≤ n := by
  have hpos := lengthOf_pos n
  rcases Nat.eq_zero_or_pos (lengthOf n - 1) with hone | hmore
  · rw [hone]
    exact Nat.pos_of_ne_zero hn
  · refine Nat.le_of_not_lt fun hlt => ?_
    have hle := (lengthOf_le_iff n hmore).mpr hlt
    omega

theorem lengthOf_mul_le (n d : Nat) : lengthOf (n * d) ≤ lengthOf n + lengthOf d := by
  have hpos := lengthOf_pos n
  rw [lengthOf_le_iff _ (by omega), tenTo_add]
  exact Nat.mul_lt_mul'' (lt_tenTo_lengthOf n) (lt_tenTo_lengthOf d)

/-- Of two numbers with zeros put at their ends the shorter one is less. -/
theorem mul_tenTo_lt_mul_tenTo {n d e f : Nat} (hd : d ≠ 0)
    (h : lengthOf n + e < lengthOf d + f) : n * tenTo e < d * tenTo f := by
  have hpos := lengthOf_pos d
  calc n * tenTo e
      < tenTo (lengthOf n) * tenTo e :=
        Nat.mul_lt_mul_of_pos_right (lt_tenTo_lengthOf n) (tenTo_pos e)
    _ = tenTo (lengthOf n + e) := (tenTo_add _ _).symm
    _ ≤ tenTo (lengthOf d - 1 + f) := tenTo_le_tenTo (by omega)
    _ = tenTo (lengthOf d - 1) * tenTo f := tenTo_add _ _
    _ ≤ d * tenTo f := Nat.mul_le_mul_right _ (tenTo_le_of_ne_zero hd)

/-- Zeros at the end of a number other than zero count. -/
theorem lengthOf_add_le_mul_tenTo {n k : Nat} (hn : n ≠ 0) :
    lengthOf n + k ≤ lengthOf (n * tenTo k) := by
  have hpos := lengthOf_pos n
  have hlow : tenTo (lengthOf n - 1 + k) ≤ n * tenTo k := by
    rw [tenTo_add]
    exact Nat.mul_le_mul_right _ (tenTo_le_of_ne_zero hn)
  have hhigh := lt_tenTo_lengthOf (n * tenTo k)
  refine Nat.le_of_not_lt fun hlt => ?_
  have hle : tenTo (lengthOf (n * tenTo k)) ≤ tenTo (lengthOf n - 1 + k) :=
    tenTo_le_tenTo (by omega)
  omega

theorem lengthOf_tenTo_le (e : Nat) : lengthOf (tenTo e) ≤ e + 1 :=
  (lengthOf_le_iff _ e.succ_pos).mpr (tenTo_lt_tenTo e.lt_succ_self)

/-! ## Spans -/

/-- How many digits there are behind the point. -/
def below (x : Decimal) : Nat :=
  (-x.exponent).toNat

/-- How many digits there are before the point. -/
def above (x : Decimal) : Nat :=
  (x.exponent + x.digitCount).toNat

/-- How many digits there are around the point. -/
def span (x : Decimal) : Nat :=
  x.below + x.above

theorem digitCount_pos (x : Decimal) : 0 < x.digitCount :=
  lengthOf_pos x.coefficient

theorem span_neg (x : Decimal) : x.neg.span = x.span :=
  rfl

theorem magnitudeAt_lt (x : Decimal) {e : Int} (he : e ≤ x.exponent) {k : Nat}
    (hk : x.exponent + x.digitCount ≤ e + k) : x.magnitudeAt e < tenTo k := by
  unfold magnitudeAt
  split
  · exact tenTo_pos k
  · have hcoefficient : x.coefficient < tenTo x.digitCount := lt_tenTo_lengthOf x.coefficient
    calc x.coefficient * tenTo (x.exponent - e).toNat
        < tenTo x.digitCount * tenTo (x.exponent - e).toNat :=
          Nat.mul_lt_mul_of_pos_right hcoefficient (tenTo_pos _)
      _ = tenTo (x.digitCount + (x.exponent - e).toNat) := (tenTo_add _ _).symm
      _ ≤ tenTo k := tenTo_le_tenTo (by omega)

theorem natAbs_unitsAt (x : Decimal) (e : Int) : (x.unitsAt e).natAbs = x.magnitudeAt e := by
  unfold unitsAt
  split <;> omega

/-- A sum has at most one digit more before the point than both summands, and behind the point none
that they have not. -/
theorem span_add_le (x y : Decimal) : (x.add y).span ≤ x.span + y.span + 1 := by
  obtain ⟨e, he⟩ : ∃ e, e = min x.exponent y.exponent := ⟨_, rfl⟩
  obtain ⟨k, hk⟩ : ∃ k : Nat, k = (max x.above y.above - e).toNat := ⟨_, rfl⟩
  have hx := x.digitCount_pos
  have hy := y.digitCount_pos
  have hxk := x.magnitudeAt_lt (e := e) (k := k) (by omega) (by unfold above at hk; omega)
  have hyk := y.magnitudeAt_lt (e := e) (k := k) (by omega) (by unfold above at hk; omega)
  have hunits : (x.add y).coefficient < tenTo (k + 1) := by
    have habs := Int.natAbs_add_le (x.unitsAt e) (y.unitsAt e)
    rw [natAbs_unitsAt, natAbs_unitsAt] at habs
    have hcoefficient : (x.add y).coefficient = (x.unitsAt e + y.unitsAt e).natAbs := by
      rw [he]
      rfl
    rw [tenTo_succ]
    omega
  have hcount : (x.add y).digitCount ≤ k + 1 := (lengthOf_le_iff _ (by omega)).mpr hunits
  have hexponent : (x.add y).exponent = e := he.symm
  unfold span below above at *
  omega

/-- The digits of a product are at most those of both factors, on each side of the point. -/
theorem span_mul_le (x y : Decimal) : (x.mul y).span ≤ x.span + y.span := by
  have hcount : (x.mul y).digitCount ≤ x.digitCount + y.digitCount :=
    lengthOf_mul_le x.coefficient y.coefficient
  have hexponent : (x.mul y).exponent = x.exponent + y.exponent := rfl
  unfold span below above
  omega

/-- A number has no more digits around the point than its numeral has characters. -/
theorem IsNumeral.span_ofNumeral_le {whole fraction : List Char} (h : IsNumeral whole fraction) :
    (ofNumeral whole fraction).span ≤ (numeral whole fraction).length := by
  have hlength := length_digits_le whole fraction
  have hcount := h.digitCount_ofNumeral_le
  have hexponent : (ofNumeral whole fraction).exponent = -fraction.length := rfl
  unfold span below above
  omega

/-! ## Rounding -/

theorem roundedQuotient_le {n d k : Nat} (h : n < d * tenTo k) : roundedQuotient n d ≤ tenTo k := by
  have hquotient : n / d < tenTo k := Nat.div_lt_of_lt_mul h
  unfold roundedQuotient
  dsimp only
  split <;> omega

/-- The exponent of a zero comes nearer to zero, if it changes at all. -/
theorem Range.span_zero_le (range : Range) (hleast : range.least ≤ 0) (hgreatest : 0 ≤ range.greatest)
    (negative : Bool) (exponent : Int) :
    (range.zero negative exponent).span ≤ (-exponent).toNat + (exponent + 1).toNat := by
  have hone : lengthOf 0 = 1 := by decide
  unfold zero span below above digitCount
  dsimp only
  rw [hone]
  omega

/-- A number that loses digits behind the point may get one more before it. -/
theorem span_roundAt_le {x : Decimal} {e : Int} (hless : x.exponent < e) (he : e < 0) :
    (x.roundAt e).span ≤ x.span := by
  have hexponent : (x.roundAt e).exponent = e := rfl
  have hcoefficient : (x.roundAt e).coefficient =
      if x.leading + 1 < e then 0 else
        roundedQuotient x.coefficient (tenTo (e - x.exponent).toNat) := rfl
  by_cases htiny : x.leading + 1 < e
  · have hcount : (x.roundAt e).digitCount = 1 := by
      rw [digitCount, hcoefficient, if_pos htiny]
      decide
    unfold span below above
    omega
  · have hlead : x.leading = x.exponent + x.digitCount - 1 := rfl
    obtain ⟨k, hk⟩ : ∃ k : Nat, (k : Int) = x.exponent + x.digitCount - e :=
      ⟨(x.exponent + x.digitCount - e).toNat, by omega⟩
    have hbound : x.coefficient < tenTo (e - x.exponent).toNat * tenTo k := by
      have hsplit : (e - x.exponent).toNat + k = x.digitCount := by omega
      rw [← tenTo_add, hsplit]
      exact lt_tenTo_lengthOf x.coefficient
    have hcount : (x.roundAt e).digitCount ≤ k + 1 := by
      refine (lengthOf_le_iff _ k.succ_pos).mpr ?_
      rw [hcoefficient, if_neg htiny]
      exact Nat.lt_of_le_of_lt (roundedQuotient_le hbound) (tenTo_lt_tenTo k.lt_succ_self)
    unfold span below above
    omega

/-- Bringing a number into the range of those that can be stored adds no digits. -/
theorem span_of_fit {x result : Decimal} (h : Range.stored.fit x = .ok result) :
    result.span ≤ x.span := by
  unfold Range.fit at h
  split at h
  · next hzero =>
    have hcount : x.digitCount = 1 := by
      rw [digitCount, hzero]
      decide
    have hclamped := Range.span_zero_le .stored (by decide) (by decide) x.negative x.exponent
    rw [Except.ok.inj h] at hclamped
    unfold span below above at hclamped ⊢
    omega
  · split at h
    · cases h
    · split at h
      · next hless =>
        rw [← Except.ok.inj h]
        exact span_roundAt_le hless (by decide)
      · exact Except.ok.inj h ▸ Nat.le_refl _

/-! ## Results that can be stored -/

/-- Why an operation may have no result, where it is told what numbers are computed with and where
operands span at most the given size: the precision is none, or a divisor is zero, or the result is
too large, or the precision or the operands take more digits than there is memory for. -/
def ArithmeticFault.CanArise (context : Context) (size : Nat) : ArithmeticFault → Prop
  | .precisionSize => isMachineInteger context.precision = false
  | .precision => isMachineInteger context.precision = true ∧
      (context.precision < 1 ∨ maxPrecision < context.precision)
  | .memory => (context.memory : Int) < context.precision ∨ context.memory < size
  | .byZero | .undefined | .overflow => True

/-- Numbers that span not too many digits can be stored. -/
theorem contains_of_span {x : Decimal} (h : x.span ≤ storableLength) :
    Range.stored.contains x = true := by
  have hmax : storableLength = 1000000000000000000 := rfl
  unfold span below above at h
  rw [Range.contains_iff, leading, Range.least_stored, Range.greatest_stored]
  omega

theorem overflow_of_fit {range : Range} {x : Decimal} {fault : ArithmeticFault}
    (hfit : range.fit x = .error fault) : fault = .overflow := by
  unfold Range.fit at hfit
  split at hfit
  · cases hfit
  · split at hfit
    · exact (Except.error.inj hfit).symm
    · split at hfit <;> cases hfit

/-- Where there is memory for the digits of both numbers together, they are not too far apart. -/
theorem isTooFar_eq_false {memory : Nat} {x y : Decimal} (h : x.span + y.span ≤ memory) :
    x.isTooFar memory y = false := by
  have hx := x.digitCount_pos
  have hy := y.digitCount_pos
  have hshort : ¬ memory < (if x.exponent < y.exponent then y else x).digitCount +
      (x.exponent - y.exponent).natAbs := by
    unfold span below above at h
    split <;> omega
  unfold isTooFar
  simp only [hshort, decide_false, Bool.and_false]

theorem storedSum_of_span {memory : Nat} {x y : Decimal} (hmemory : x.span + y.span ≤ memory)
    (hstorable : x.span + y.span + 1 ≤ storableLength) :
    x.storedSum memory y = .ok (x.add y) := by
  unfold storedSum
  rw [isTooFar_eq_false hmemory, if_neg Bool.false_ne_true]
  exact Range.fit_eq_of_contains (contains_of_span (Nat.le_trans (span_add_le x y) hstorable))

theorem span_of_storedSum {memory : Nat} {x y result : Decimal}
    (h : x.storedSum memory y = .ok result) : result.span ≤ x.span + y.span + 1 := by
  unfold storedSum at h
  split at h
  · cases h
  · exact Nat.le_trans (span_of_fit h) (span_add_le x y)

theorem canArise_of_storedSum {context : Context} {size : Nat} {x y : Decimal}
    {fault : ArithmeticFault} (hsize : x.span + y.span ≤ size)
    (hsum : x.storedSum context.memory y = .error fault) : fault.CanArise context size := by
  unfold storedSum at hsum
  split at hsum
  · next hfar =>
    rw [← Except.error.inj hsum]
    refine Or.inr (Nat.lt_of_not_le fun hle => ?_)
    rw [isTooFar_eq_false (Nat.le_trans hsize hle)] at hfar
    cases hfar
  · rw [overflow_of_fit hsum]
    trivial

theorem storedProduct_of_span {x y : Decimal} (h : x.span + y.span ≤ storableLength) :
    x.storedProduct y = .ok (x.mul y) :=
  Range.fit_eq_of_contains (contains_of_span (Nat.le_trans (span_mul_le x y) h))

theorem span_of_storedProduct {x y result : Decimal} (h : x.storedProduct y = .ok result) :
    result.span ≤ x.span + y.span :=
  Nat.le_trans (span_of_fit h) (span_mul_le x y)

/-! ## Quotients -/

/-- The leading digit of a quotient stands where `leadingExponent` tells, or lower. -/
theorem mul_tenTo_lt_of_leadingExponent (n : Nat) {d : Nat} (hd : d ≠ 0) :
    n * tenTo (-(leadingExponent n d + 1)).toNat < d * tenTo (leadingExponent n d + 1).toNat := by
  unfold leadingExponent
  dsimp only
  split
  · -- one digit more than the lengths differ by is too many
    exact mul_tenTo_lt_mul_tenTo hd (by omega)
  · next hless =>
    rw [Int.sub_add_cancel]
    exact Nat.lt_of_not_le hless

theorem leadingExponent_bounds (n d : Nat) :
    (lengthOf n : Int) - lengthOf d - 1 ≤ leadingExponent n d ∧
      leadingExponent n d ≤ lengthOf n - lengthOf d := by
  unfold leadingExponent
  dsimp only
  split <;> omega

/-- Counting both numbers in other units moves the leading digit of their quotient. -/
theorem mul_tenTo_lt_mul {n d : Nat} {lead shift : Int} {k : Nat}
    (h : n * tenTo (-lead).toNat < d * tenTo lead.toNat) (hk : (k : Int) = lead + shift) :
    n * tenTo shift.toNat < d * tenTo (-shift).toNat * tenTo k := by
  have hmul := Nat.mul_lt_mul_of_pos_right h (tenTo_pos shift.toNat)
  have hsame : tenTo lead.toNat * tenTo shift.toNat =
      tenTo (-shift).toNat * tenTo k * tenTo (-lead).toNat := by
    rw [← tenTo_add, ← tenTo_add, ← tenTo_add]
    congr 1
    omega
  refine Nat.lt_of_mul_lt_mul_right (a := tenTo (-lead).toNat) ?_
  calc n * tenTo shift.toNat * tenTo (-lead).toNat
      = n * tenTo (-lead).toNat * tenTo shift.toNat := Nat.mul_right_comm _ _ _
    _ < d * tenTo lead.toNat * tenTo shift.toNat := hmul
    _ = d * (tenTo lead.toNat * tenTo shift.toNat) := Nat.mul_assoc _ _ _
    _ = d * tenTo (-shift).toNat * tenTo k * tenTo (-lead).toNat := by
        rw [hsame]
        simp only [Nat.mul_assoc]

/-- Dropping zeros divides by a power of ten. -/
theorem dropBlocks_mul (lengths limit coefficient : Nat) :
    (dropBlocks lengths limit coefficient).1 * tenTo (dropBlocks lengths limit coefficient).2 =
      coefficient := by
  induction lengths generalizing limit coefficient with
  | zero => exact Nat.mul_one coefficient
  | succ lengths ih =>
    unfold dropBlocks
    dsimp only
    split
    · next hdrop =>
      have hzero : coefficient % tenTo (Nat.pow 2 lengths) = 0 := by
        simp only [Bool.and_eq_true, beq_iff_eq] at hdrop
        exact hdrop.2
      rw [tenTo_add, ← Nat.mul_assoc, ih]
      exact Nat.div_mul_cancel (Nat.dvd_of_mod_eq_zero hzero)
    · exact ih limit coefficient

/-- The zeros that are dropped are digits that the rest has not. -/
theorem lengthOf_dropZeros_le (limit : Nat) {n : Nat} (hn : n ≠ 0) :
    lengthOf (dropZeros limit n).1 + (dropZeros limit n).2 ≤ lengthOf n := by
  have hmul : (dropZeros limit n).1 * tenTo (dropZeros limit n).2 = n := dropBlocks_mul _ limit n
  have hrest : (dropZeros limit n).1 ≠ 0 := by
    intro hzero
    rw [hzero, Nat.zero_mul] at hmul
    exact hn hmul.symm
  have hzeros := lengthOf_add_le_mul_tenTo hrest (k := (dropZeros limit n).2)
  rwa [hmul] at hzeros

/-- A quotient has digits before the point as the operands tell, and behind the point as they and the
precision tell. -/
theorem span_quotient_le {precision : Nat} (hprecision : 0 < precision) {x y : Decimal}
    (hx : x.coefficient ≠ 0) (hy : y.coefficient ≠ 0) :
    (quotient precision x y).value.span ≤ x.span + y.span + precision := by
  have hcountX := x.digitCount_pos
  have hcountY := y.digitCount_pos
  have hleast : (Range.ofQuotients precision).least = -999999 - (precision - 1) := rfl
  obtain ⟨lead, hlead⟩ : ∃ lead, lead = leadingExponent x.coefficient y.coefficient := ⟨_, rfl⟩
  have hbounds := leadingExponent_bounds x.coefficient y.coefficient
  have hcomparison := mul_tenTo_lt_of_leadingExponent x.coefficient hy
  rw [← hlead] at hbounds hcomparison
  have hdigits : (lengthOf x.coefficient : Int) = x.digitCount ∧
    (lengthOf y.coefficient : Int) = y.digitCount := ⟨rfl, rfl⟩
  unfold quotient
  dsimp only
  rw [← hlead]
  obtain ⟨place, hplace⟩ : ∃ place : Int, place =
      max (lead + (x.exponent - y.exponent) - (precision - 1))
        (Range.ofQuotients precision).least := ⟨_, rfl⟩
  rw [← hplace]
  rw [hleast] at hplace
  split
  · -- nothing is left but the least exponent
    next htiny =>
    have hzero : lengthOf 0 = 1 := by decide
    unfold span below above digitCount at *
    dsimp only
    rw [hzero]
    omega
  · next hlarge =>
    obtain ⟨k, hk⟩ : ∃ k : Nat, (k : Int) = lead + 1 + (x.exponent - y.exponent - place) :=
      ⟨(lead + 1 + (x.exponent - y.exponent - place)).toNat, by omega⟩
    have hround := roundedQuotient_le (mul_tenTo_lt_mul hcomparison hk)
    rw [Int.neg_sub] at hround
    generalize roundedQuotient _ _ = rounded at hround ⊢
    have hlength : lengthOf rounded ≤ k + 1 :=
      (lengthOf_le_iff _ k.succ_pos).mpr (Nat.lt_of_le_of_lt hround (tenTo_lt_tenTo k.lt_succ_self))
    -- the last digit stands at the place or before it, and the leading one where it may
    have hspan : ∀ (v : Decimal) (zeros : Nat), v.exponent = place + zeros →
        v.digitCount + zeros ≤ k + 1 → v.span ≤ x.span + y.span + precision := by
      intro v zeros hexponent hcount
      unfold span below above
      omega
    split
    · next hexact =>
      have hne : rounded ≠ 0 := by
        rintro rfl
        rw [Nat.zero_mul] at hexact
        exact absurd hexact.symm (Nat.mul_ne_zero hx (Nat.ne_of_gt (tenTo_pos _)))
      exact hspan _ _ rfl (Nat.le_trans (lengthOf_dropZeros_le _ hne) hlength)
    · split
      · next hfull =>
        have hle : precision ≤ k := by
          refine Nat.le_of_not_lt fun hlt => ?_
          have hmore := tenTo_lt_tenTo hlt
          omega
        have hshort := lengthOf_tenTo_le (precision - 1)
        refine hspan _ 1 rfl ?_
        show lengthOf (tenTo (precision - 1)) + 1 ≤ k + 1
        omega
      · refine hspan _ 0 (Int.add_zero _).symm ?_
        rw [Nat.add_zero]
        exact hlength

/-- Only for a precision that is longer there may be no memory. -/
theorem quotient?_spec (memory : Nat) {precision : Nat} (hprecision : 0 < precision) {x y : Decimal}
    (hx : x.coefficient ≠ 0) (hy : y.coefficient ≠ 0) :
    match quotient? memory precision x y with
    | some result => result.value.span ≤ x.span + y.span + precision
    | none => memory < precision := by
  have hlength : 0 < exactLength x y := Nat.add_pos_left x.digitCount_pos _
  -- what is tried first has no more digits than the precision
  have hshort : (quotient (min precision (exactLength x y)) x y).value.span ≤
      x.span + y.span + precision :=
    Nat.le_trans (span_quotient_le (by omega) hx hy) (by omega)
  unfold quotient?
  dsimp only
  by_cases hexact : (decide (precision ≤ exactLength x y) ||
      ((quotient (min precision (exactLength x y)) x y).exact &&
        (quotient (min precision (exactLength x y)) x y).value.isNormal)) = true
  · rw [if_pos hexact]
    exact hshort
  · rw [if_neg hexact]
    by_cases hlong : memory < precision
    · rw [if_pos hlong]
      exact hlong
    · rw [if_neg hlong]
      exact span_quotient_le hprecision hx hy

/-- A division with a precision that is one, by a number other than zero. -/
theorem divide_of_le {context : Context} {x y : Decimal} (hlow : 1 ≤ context.precision)
    (hhigh : context.precision ≤ maxPrecision) (hy : y.coefficient ≠ 0) :
    divide context x y =
      if x.coefficient = 0 then
        .ok ((Range.ofQuotients context.precision).zero (x.negative != y.negative)
          (x.exponent - y.exponent))
      else
        match quotient? context.memory context.precision.toNat x y with
        | none => .error .memory
        | some result =>
          if maxExponent < result.value.leading then .error .overflow else .ok result.value := by
  have hmachine : isMachineInteger context.precision = true := by
    unfold isMachineInteger maxPrecision at *
    simp only [Bool.and_eq_true, decide_eq_true_eq]
    omega
  have hrange : (decide (context.precision < 1) ||
      decide (maxPrecision < context.precision)) = false := by
    simp only [Bool.or_eq_false_iff, decide_eq_false_iff_not]
    omega
  unfold divide
  dsimp only
  rw [hmachine, hrange, if_neg hy]
  rfl

/-- A division with a precision above the greatest one. -/
theorem divide_of_lt {context : Context} (h : maxPrecision < context.precision) (x y : Decimal) :
    divide context x y =
      .error (if isMachineInteger context.precision then .precision else .precisionSize) := by
  have hrange : (decide (context.precision < 1) ||
      decide (maxPrecision < context.precision)) = true := by
    rw [decide_eq_true h, Bool.or_true]
  unfold divide
  dsimp only
  rw [hrange]
  cases isMachineInteger context.precision <;> rfl

/-- A division fails at once, unless the precision is one and the divisor is not zero. -/
theorem divide_cases (context : Context) (size : Nat) (x y : Decimal) :
    (∃ fault, divide context x y = .error fault ∧ fault.CanArise context size) ∨
      1 ≤ context.precision ∧ context.precision ≤ maxPrecision ∧ y.coefficient ≠ 0 := by
  unfold divide
  dsimp only
  by_cases hmachine : isMachineInteger context.precision = true
  · rw [hmachine, if_neg (by decide)]
    by_cases hrange : (decide (context.precision < 1) ||
        decide (maxPrecision < context.precision)) = true
    · rw [if_pos hrange]
      rw [Bool.or_eq_true, decide_eq_true_eq, decide_eq_true_eq] at hrange
      exact Or.inl ⟨.precision, rfl, hmachine, hrange⟩
    · rw [if_neg hrange]
      rw [Bool.or_eq_true, decide_eq_true_eq, decide_eq_true_eq] at hrange
      by_cases hy : y.coefficient = 0
      · rw [if_pos hy]
        refine Or.inl ⟨_, rfl, ?_⟩
        split <;> trivial
      · exact Or.inr ⟨by omega, by omega, hy⟩
  · simp only [Bool.not_eq_true] at hmachine
    rw [hmachine, if_pos (by decide)]
    exact Or.inl ⟨.precisionSize, rfl, hmachine⟩

theorem span_of_divide {context : Context} {x y result : Decimal}
    (h : divide context x y = .ok result) :
    result.span ≤ x.span + y.span + context.precision.toNat := by
  rcases divide_cases context 0 x y with ⟨fault, hfault, -⟩ | ⟨hlow, hhigh, hy⟩
  · rw [hfault] at h
    cases h
  · rw [divide_of_le hlow hhigh hy] at h
    by_cases hx : x.coefficient = 0
    · rw [if_pos hx] at h
      have hleast : (Range.ofQuotients context.precision).least =
          -999999 - (context.precision - 1) := rfl
      have hgreatest : (Range.ofQuotients context.precision).greatest = 999999 := rfl
      have hzero := Range.span_zero_le (.ofQuotients context.precision) (by omega) (by omega)
        (x.negative != y.negative) (x.exponent - y.exponent)
      rw [Except.ok.inj h] at hzero
      have hcountX := x.digitCount_pos
      have hcountY := y.digitCount_pos
      unfold span below above at *
      omega
    · rw [if_neg hx] at h
      have hpositive : 0 < context.precision.toNat := by omega
      have hspec := quotient?_spec context.memory hpositive hx hy
      cases hresult : quotient? context.memory context.precision.toNat x y with
      | none =>
        rw [hresult] at h
        cases h
      | some quotient =>
        rw [hresult] at h hspec
        dsimp only at h
        split at h
        · cases h
        · exact Except.ok.inj h ▸ hspec

theorem canArise_of_divide {context : Context} {size : Nat} {x y : Decimal}
    {fault : ArithmeticFault} (h : divide context x y = .error fault) :
    fault.CanArise context size := by
  rcases divide_cases context size x y with ⟨other, hother, hof⟩ | ⟨hlow, hhigh, hy⟩
  · rw [hother] at h
    exact Except.error.inj h ▸ hof
  · rw [divide_of_le hlow hhigh hy] at h
    by_cases hx : x.coefficient = 0
    · rw [if_pos hx] at h
      cases h
    · rw [if_neg hx] at h
      have hpositive : 0 < context.precision.toNat := by omega
      have hspec := quotient?_spec context.memory hpositive hx hy
      cases hresult : quotient? context.memory context.precision.toNat x y with
      | none =>
        rw [hresult] at h hspec
        rw [← Except.error.inj h]
        refine Or.inl ?_
        omega
      | some quotient =>
        rw [hresult] at h
        dsimp only at h
        split at h
        · rw [← Except.error.inj h]
          trivial
        · cases h

end QuoteStack.Decimal
