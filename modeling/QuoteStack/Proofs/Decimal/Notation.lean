import QuoteStack.Proofs.Decimal.Numeral

/-!
The written form of numbers, with and without an exponent. It is a sign, a numeral and an exponent,
and reading it gives back the number, with its sign, all its digits and its exponent. So different
numbers are written differently, as `toText_injective` says.
-/

namespace QuoteStack.Decimal

/-- Scientific notation is a numeral with one digit before the point, and an exponent. -/
theorem scientific_eq (first : Char) (rest : List Char) (leading : Int) :
    scientific (first :: rest) leading = numeral [first] rest ++
      'E' :: (if leading < 0 then '-' else '+') :: Nat.toDigits 10 leading.natAbs := by
  cases rest <;> rfl

/-- The exponent of scientific notation is read back. -/
theorem isExponent_scientific (leading : Int) :
    IsExponent ('E' :: (if leading < 0 then '-' else '+') :: Nat.toDigits 10 leading.natAbs)
      leading := by
  have hdigits : ∀ c ∈ Nat.toDigits 10 leading.natAbs, c.isDigit = true :=
    fun c hc => Nat.isDigit_of_mem_toDigits (by decide) (by decide) hc
  refine ⟨fun c hc => (Option.some.inj hc).symm, fun c hc => ?_, ?_⟩
  · rcases List.mem_cons.mp hc with rfl | hc
    · decide
    · rcases List.mem_cons.mp hc with rfl | hc
      · split <;> decide
      · exact isNumberChar_of_isDigit (hdigits c hc)
  · have hsign : Text.splitSign ((if leading < 0 then '-' else '+') ::
        Nat.toDigits 10 leading.natAbs) = (decide (leading < 0), Nat.toDigits 10 leading.natAbs) := by
      by_cases h : leading < 0
      · rw [if_pos h, decide_eq_true h]
        rfl
      · rw [if_neg h, decide_eq_false h]
        rfl
    -- all digits are read, since nothing stands behind them
    have hspan := @spanDigits_append _ [] hdigits fun c hc => nomatch hc
    have hvalue := ofDigits_map_digits (Nat.toDigits 10 leading.natAbs)
    rw [Nat.ofDigitChars_ten_toDigits] at hvalue
    obtain ⟨c, others, hcons⟩ := List.exists_cons_of_ne_nil
      (List.ne_nil_of_length_pos (Nat.length_toDigits_pos (b := 10) (n := leading.natAbs)))
    rw [hcons] at hsign hspan hvalue ⊢
    rw [List.append_nil] at hspan
    rw [List.map_cons] at hspan hvalue
    unfold readExponent?
    simp only [hsign, hspan, hvalue]
    show some (if decide (leading < 0) = true then -(leading.natAbs : Int) else leading.natAbs) =
      some leading
    by_cases h : leading < 0
    · rw [if_pos (decide_eq_true h), Int.ofNat_natAbs_of_nonpos (Int.le_of_lt h), Int.neg_neg]
    · rw [if_neg (by rwa [decide_eq_true_eq]), Int.natAbs_of_nonneg (Int.not_lt.mp h)]

/-- A number is written as a sign, a numeral and an exponent. -/
theorem exists_toChars_eq (x : Decimal) :
    ∃ whole fraction exponent e, IsNumeral whole fraction ∧ IsExponent exponent e ∧
      x.toChars = signed x.negative (numeral whole fraction ++ exponent) ∧
      Nat.ofDigitChars 10 (whole ++ fraction) 0 = x.coefficient ∧
      e - fraction.length = x.exponent := by
  have htext : x.toChars = signed x.negative
      (if x.exponent ≤ 0 ∧ -6 ≤ x.exponent + (Nat.toDigits 10 x.coefficient).length - 1 then
        positional (Nat.toDigits 10 x.coefficient) (-x.exponent).toNat
      else scientific (Nat.toDigits 10 x.coefficient)
        (x.exponent + (Nat.toDigits 10 x.coefficient).length - 1)) := rfl
  rw [htext]
  split
  · next hplain =>
    -- without an exponent, a number is written as a numeral of its magnitude
    obtain ⟨whole, fraction, hnumeral, hpositional, hvalue⟩ :=
      exists_numeral_of_nonneg { x with negative := false } rfl hplain.1
    obtain ⟨-, hcoefficient, hexponent⟩ := Decimal.mk.inj hvalue
    refine ⟨whole, fraction, [], 0, hnumeral, isExponent_nil, ?_, hcoefficient, ?_⟩
    · rw [List.append_nil, ← hpositional]
    · rw [Int.zero_sub]
      exact hexponent
  · have hdigits : ∀ c ∈ Nat.toDigits 10 x.coefficient, c.isDigit = true :=
      fun c hc => Nat.isDigit_of_mem_toDigits (by decide) (by decide) hc
    have hvalue : Nat.ofDigitChars 10 (Nat.toDigits 10 x.coefficient) 0 = x.coefficient :=
      Nat.ofDigitChars_ten_toDigits
    -- with one, the point stands behind the first digit
    obtain ⟨first, rest, hcons⟩ := List.exists_cons_of_ne_nil
      (List.ne_nil_of_length_pos (Nat.length_toDigits_pos (b := 10) (n := x.coefficient)))
    rw [hcons] at hdigits hvalue ⊢
    obtain ⟨hfirst, hrest⟩ := List.forall_mem_cons.mp hdigits
    refine ⟨[first], rest, _, x.exponent + (first :: rest).length - 1,
      ⟨List.cons_ne_nil _ _, List.forall_mem_singleton.mpr hfirst, hrest⟩,
      isExponent_scientific _, congrArg (signed x.negative) (scientific_eq first rest _), hvalue, ?_⟩
    rw [List.length_cons]
    omega

/-- Reading the written form of a number gives it back. -/
theorem ofText?_toText (x : Decimal) : ofText? x.toText = some x := by
  obtain ⟨whole, fraction, exponent, e, hnumeral, he, htext, hcoefficient, hexponent⟩ :=
    exists_toChars_eq x
  rw [ofText?, toText, String.toList_ofList, htext, hnumeral.ofChars?_signed he, hcoefficient,
    hexponent]

/-- Different numbers are written differently. -/
theorem toText_injective {x y : Decimal} (h : x.toText = y.toText) : x = y := by
  have hread := ofText?_toText x
  rw [h, ofText?_toText] at hread
  exact (Option.some.inj hread).symm

theorem isNumberChar_of_mem_toText {x : Decimal} {c : Char} (hc : c ∈ x.toText.toList) :
    isNumberChar c = true := by
  obtain ⟨whole, fraction, exponent, e, hnumeral, he, htext, -, -⟩ := exists_toChars_eq x
  rw [toText, String.toList_ofList, htext] at hc
  exact hnumeral.isNumberChar_signed he x.negative c hc

/-- The written form of a number starts with a digit or a minus. -/
theorem exists_head_toText (x : Decimal) :
    ∃ c rest, x.toText.toList = c :: rest ∧ (c.isDigit = true ∨ c = '-') := by
  obtain ⟨whole, fraction, exponent, e, hnumeral, he, htext, -, -⟩ := exists_toChars_eq x
  obtain ⟨c, rest, hcons, hc⟩ := hnumeral.exists_cons
  rw [toText, String.toList_ofList, htext]
  cases x.negative with
  | false => exact ⟨c, rest ++ exponent, by rw [hcons]; rfl, Or.inl hc⟩
  | true => exact ⟨'-', _, rfl, Or.inr rfl⟩

end QuoteStack.Decimal
