import QuoteStack.Decimal.Notation
import QuoteStack.Decimal.Range

/-!
Numerals: unsigned numbers in plain positional notation, the form that numbers have in program
texts. A numeral is read as the number of all its digits, with an exponent that counts the digits
behind the point, so no zero is lost; a number is written as a numeral by `positional`. With a sign
before it and an exponent behind it a numeral is read in the same way. Only numerals of enormous
length are numbers that cannot be stored.
-/

namespace QuoteStack.Decimal

/-- The numeral with the given digits before and behind the point. Without digits behind it there
is no point. -/
def numeral (whole fraction : List Char) : List Char :=
  if fraction = [] then whole else whole ++ '.' :: fraction

/-- The number that a numeral stands for. -/
def ofNumeral (whole fraction : List Char) : Decimal :=
  ⟨false, Nat.ofDigitChars 10 (whole ++ fraction) 0, -fraction.length⟩

/-- A numeral has a digit before the point, and nothing but digits around it. -/
structure IsNumeral (whole fraction : List Char) : Prop where
  nonempty : whole ≠ []
  whole_digits : ∀ c ∈ whole, c.isDigit = true
  fraction_digits : ∀ c ∈ fraction, c.isDigit = true

/-! ## Digits -/

theorem digitValue?_of_isDigit {c : Char} (h : c.isDigit = true) :
    Text.digitValue? c = some (c.toNat - '0'.toNat) := by
  have hbounds := Char.isDigit_iff_toNat.mp h
  have hlow : 0x30 ≤ c.toNat := hbounds.1
  have hhigh : c.toNat < 0x30 + 10 := by
    have : c.toNat ≤ 57 := hbounds.2
    omega
  -- the digits of the Latin script come first in the table
  unfold Text.digitValue? Text.digitZeros
  rw [List.find?_cons]
  simp only [hlow, hhigh, decide_true, Bool.and_true]
  rfl

theorem not_isBlank_of_isDigit {c : Char} (h : c.isDigit = true) : Text.isBlank c = false := by
  have hbounds := Char.isDigit_iff_toNat.mp h
  have hlow : 48 ≤ c.toNat := hbounds.1
  have hhigh : c.toNat ≤ 57 := hbounds.2
  simp only [Text.isBlank, Text.blankCodes, List.contains_eq_mem, List.mem_cons,
    List.not_mem_nil, or_false, decide_eq_false_iff_not]
  omega

/-- The digits at the head of a text are split off, up to a character that is none. -/
theorem spanDigits_append {digits rest : List Char} (hdigits : ∀ c ∈ digits, c.isDigit = true)
    (hrest : ∀ c, rest.head? = some c → Text.digitValue? c = none) :
    spanDigits (digits ++ rest) = (digits.map fun c => c.toNat - '0'.toNat, rest) := by
  induction digits with
  | nil =>
    cases rest with
    | nil => rfl
    | cons c rest =>
      rw [List.nil_append, spanDigits, hrest c rfl]
      rfl
  | cons c digits ih =>
    have hc := hdigits c List.mem_cons_self
    have htail := ih fun d hd => hdigits d (List.mem_cons_of_mem _ hd)
    rw [List.cons_append, spanDigits, digitValue?_of_isDigit hc, htail]
    rfl

/-- The values of digits spell the number that the digits spell. -/
theorem ofDigits_map_digits (digits : List Char) :
    Text.ofDigits (digits.map fun c => c.toNat - '0'.toNat) = Nat.ofDigitChars 10 digits 0 := by
  rw [Text.ofDigits, List.foldl_map, Nat.ofDigitChars_eq_foldl]

/-! ## Reading a number -/

/-- The characters that numbers are written with. -/
def isNumberChar (c : Char) : Bool :=
  c.isDigit || c == '.' || c == 'E' || c == '+' || c == '-'

/-- What may stand behind the digits of a number: nothing, or a mark and an exponent. -/
structure IsExponent (text : List Char) (e : Int) : Prop where
  head : ∀ c, text.head? = some c → c = 'E'
  chars : ∀ c ∈ text, isNumberChar c = true
  value : readExponent? text = some e

/-- A text with a minus before it, if there is to be one. -/
def signed (negative : Bool) (text : List Char) : List Char :=
  if negative then '-' :: text else text

theorem isExponent_nil : IsExponent [] 0 :=
  ⟨fun _ h => (nomatch h), fun _ h => absurd h List.not_mem_nil, rfl⟩

theorem isNumberChar_of_isDigit {c : Char} (h : c.isDigit = true) : isNumberChar c = true := by
  unfold isNumberChar
  rw [h]
  rfl

theorem not_isBlank_of_isNumberChar {c : Char} (h : isNumberChar c = true) :
    Text.isBlank c = false := by
  simp only [isNumberChar, Bool.or_eq_true, beq_iff_eq] at h
  rcases h with (((h | rfl) | rfl) | rfl) | rfl
  · exact not_isBlank_of_isDigit h
  · decide
  · decide
  · decide
  · decide

/-- A text without blanks is trimmed to itself. -/
theorem trim_eq_self {text : List Char} (h : ∀ c ∈ text, Text.isBlank c = false) :
    Text.trim text = text := by
  have hdrop : ∀ l : List Char, (∀ c ∈ l, Text.isBlank c = false) →
      l.dropWhile Text.isBlank = l := by
    intro l hl
    cases l with
    | nil => rfl
    | cons c rest => rw [List.dropWhile_cons, hl c List.mem_cons_self]; rfl
  unfold Text.trim Text.trimBy
  rw [hdrop text h, hdrop text.reverse fun c hc => h c (List.mem_reverse.mp hc),
    List.reverse_reverse]

/-- In a text of characters of numbers, there is nothing that does not count. -/
theorem filter_trim_eq_self {text : List Char} (h : ∀ c ∈ text, isNumberChar c = true) :
    (Text.trim text).filter (· != '_') = text := by
  rw [trim_eq_self fun c hc => not_isBlank_of_isNumberChar (h c hc)]
  refine List.filter_eq_self.mpr fun c hc => ?_
  rw [bne_iff_ne]
  rintro rfl
  exact absurd (h '_' hc) (by decide)

variable {whole fraction : List Char}

theorem IsNumeral.isDigit_or_point (h : IsNumeral whole fraction) {c : Char}
    (hc : c ∈ numeral whole fraction) : c.isDigit = true ∨ c = '.' := by
  unfold numeral at hc
  split at hc
  · exact Or.inl (h.whole_digits c hc)
  · rcases List.mem_append.mp hc with hc | hc
    · exact Or.inl (h.whole_digits c hc)
    · rcases List.mem_cons.mp hc with rfl | hc
      · exact Or.inr rfl
      · exact Or.inl (h.fraction_digits c hc)

/-- A numeral starts with a digit. -/
theorem IsNumeral.exists_cons (h : IsNumeral whole fraction) :
    ∃ c rest, numeral whole fraction = c :: rest ∧ c.isDigit = true := by
  obtain ⟨c, others, rfl⟩ := List.exists_cons_of_ne_nil h.nonempty
  have hc := h.whole_digits c List.mem_cons_self
  unfold numeral
  split <;> exact ⟨c, _, rfl, hc⟩

/-- All that is written of a number is characters of numbers. -/
theorem IsNumeral.isNumberChar_signed (h : IsNumeral whole fraction) {exponent : List Char} {e : Int}
    (he : IsExponent exponent e) (negative : Bool) :
    ∀ c ∈ signed negative (numeral whole fraction ++ exponent), isNumberChar c = true := by
  have hbody : ∀ c ∈ numeral whole fraction ++ exponent, isNumberChar c = true := by
    intro c hc
    rcases List.mem_append.mp hc with hc | hc
    · rcases h.isDigit_or_point hc with hc | rfl
      · exact isNumberChar_of_isDigit hc
      · decide
    · exact he.chars c hc
  cases negative with
  | false => exact hbody
  | true => exact List.forall_mem_cons.mpr ⟨by decide, hbody⟩

/-- The sign of a number is split off its digits. -/
theorem IsNumeral.splitSign_signed (h : IsNumeral whole fraction) (exponent : List Char)
    (negative : Bool) :
    Text.splitSign (signed negative (numeral whole fraction ++ exponent)) =
      (negative, numeral whole fraction ++ exponent) := by
  cases negative with
  | true => rfl
  | false =>
    obtain ⟨c, rest, hnumeral, hc⟩ := h.exists_cons
    rw [hnumeral]
    unfold signed Text.splitSign
    rw [if_neg (by decide)]
    split
    · next heq =>
      injection heq with heq _
      subst heq
      exact absurd hc (by decide)
    · next heq =>
      injection heq with heq _
      subst heq
      exact absurd hc (by decide)
    · rfl

/-- A number falls into its digits before the point, its digits behind it, and the exponent. -/
theorem IsNumeral.spanDigits_eq (h : IsNumeral whole fraction) {exponent : List Char} {e : Int}
    (he : IsExponent exponent e) :
    ∃ rest, spanDigits (numeral whole fraction ++ exponent) =
        (whole.map fun c => c.toNat - '0'.toNat, rest) ∧
      readFraction rest = (fraction.map fun c => c.toNat - '0'.toNat, exponent) := by
  have hstop : ∀ c, exponent.head? = some c → Text.digitValue? c = none := by
    intro c hc
    obtain rfl := he.head c hc
    decide
  unfold numeral
  split
  · next hempty =>
    subst hempty
    refine ⟨exponent, spanDigits_append h.whole_digits hstop, ?_⟩
    unfold readFraction
    split
    · exact absurd (he.head '.' rfl) (by decide)
    · rfl
  · refine ⟨'.' :: (fraction ++ exponent), ?_, spanDigits_append h.fraction_digits hstop⟩
    rw [List.append_assoc, List.cons_append]
    refine spanDigits_append h.whole_digits fun c hc => ?_
    obtain rfl : '.' = c := Option.some.inj hc
    decide

/-- Reading a number gives its sign, the number that its digits spell, and its exponent less the
digits behind the point. -/
theorem IsNumeral.ofChars?_signed (h : IsNumeral whole fraction) {exponent : List Char} {e : Int}
    (he : IsExponent exponent e) (negative : Bool) :
    ofChars? (signed negative (numeral whole fraction ++ exponent)) =
      some ⟨negative, Nat.ofDigitChars 10 (whole ++ fraction) 0, e - fraction.length⟩ := by
  obtain ⟨rest, hspan, hfraction⟩ := h.spanDigits_eq he
  have hdigits : Text.ofDigits ((whole ++ fraction).map fun c => c.toNat - '0'.toNat) =
      Nat.ofDigitChars 10 (whole ++ fraction) 0 := ofDigits_map_digits _
  obtain ⟨c, others, hwhole⟩ := List.exists_cons_of_ne_nil h.nonempty
  unfold ofChars?
  simp only [filter_trim_eq_self (h.isNumberChar_signed he negative), h.splitSign_signed, hspan,
    hfraction, he.value, ← List.map_append]
  rw [hwhole] at hdigits ⊢
  simp only [List.cons_append, List.map_cons] at hdigits ⊢
  rw [hdigits, List.length_map]

/-- Reading a numeral gives the number that it stands for. -/
theorem IsNumeral.ofChars?_eq (h : IsNumeral whole fraction) :
    ofChars? (numeral whole fraction) = some (ofNumeral whole fraction) := by
  have hread := h.ofChars?_signed isExponent_nil false
  rw [List.append_nil, Int.zero_sub] at hread
  exact hread

/-! ## Numbers that can be stored -/

theorem tenTo_succ (e : Nat) : tenTo (e + 1) = tenTo e * 10 :=
  rfl

/-- Digits spell a number with at most as many digits. -/
theorem ofDigitChars_lt {digits : List Char} (h : ∀ c ∈ digits, c.isDigit = true) (init : Nat) :
    Nat.ofDigitChars 10 digits init < (init + 1) * tenTo digits.length := by
  induction digits generalizing init with
  | nil =>
    show init < (init + 1) * 1
    omega
  | cons c rest ih =>
    have hbounds := Char.isDigit_iff_toNat.mp (h c List.mem_cons_self)
    have hhigh : c.toNat - '0'.toNat < 10 := by
      have hmax : c.toNat ≤ 57 := hbounds.2
      have hzero : '0'.toNat = 48 := rfl
      omega
    rw [Nat.ofDigitChars_cons, List.length_cons]
    have hrest := ih (fun d hd => h d (List.mem_cons_of_mem _ hd)) (10 * init + (c.toNat - '0'.toNat))
    calc Nat.ofDigitChars 10 rest (10 * init + (c.toNat - '0'.toNat))
        < (10 * init + (c.toNat - '0'.toNat) + 1) * tenTo rest.length := hrest
      _ ≤ (init + 1) * 10 * tenTo rest.length := Nat.mul_le_mul_right _ (by omega)
      _ = (init + 1) * tenTo (rest.length + 1) := by
        rw [tenTo_succ, Nat.mul_assoc, Nat.mul_comm 10]

/-- The greatest length of a text whose numerals are certain to be numbers that can be stored. -/
def storableLength : Nat := 1000000000000000000

/-- All digits of a numeral are characters of it. -/
theorem length_digits_le (whole fraction : List Char) :
    whole.length + fraction.length ≤ (numeral whole fraction).length := by
  unfold numeral
  split
  · next hempty =>
    subst hempty
    exact Nat.le_refl _
  · rw [List.length_append, List.length_cons]
    omega

/-- A number has no more digits than its numeral. -/
theorem IsNumeral.digitCount_ofNumeral_le (h : IsNumeral whole fraction) :
    (ofNumeral whole fraction).digitCount ≤ whole.length + fraction.length := by
  have hpos : 0 < whole.length := List.length_pos_iff.mpr h.nonempty
  have hdigits : ∀ c ∈ whole ++ fraction, c.isDigit = true := by
    intro c hc
    rcases List.mem_append.mp hc with hc | hc
    · exact h.whole_digits c hc
    · exact h.fraction_digits c hc
  unfold digitCount
  rw [lengthOf_eq, Nat.length_toDigits_le_iff (by decide) (by omega), ofNumeral]
  have hlt := ofDigitChars_lt hdigits 0
  rwa [List.length_append, Nat.zero_add, Nat.one_mul] at hlt

theorem Range.contains_iff {range : Range} {x : Decimal} :
    range.contains x = true ↔ range.least ≤ x.exponent ∧ x.leading ≤ range.greatest := by
  simp [contains]

theorem Range.least_stored : Range.stored.least = -1999999999999999997 := by
  decide

theorem Range.greatest_stored : Range.stored.greatest = 999999999999999999 :=
  rfl

/-- A numeral that is not too long is a number that can be stored. -/
theorem IsNumeral.contains_ofNumeral (h : IsNumeral whole fraction)
    (hlength : (numeral whole fraction).length ≤ storableLength) :
    Range.stored.contains (ofNumeral whole fraction) = true := by
  have hlengths := length_digits_le whole fraction
  have hcount := h.digitCount_ofNumeral_le
  have hexponent : (ofNumeral whole fraction).exponent = -fraction.length := rfl
  have hbound : storableLength = 1000000000000000000 := rfl
  rw [Range.contains_iff, leading, Range.least_stored, Range.greatest_stored, hexponent]
  omega

/-! ## Writing a numeral -/

/-- Digits are a numeral wherever the point is put behind the first of them. -/
theorem isNumeral_take_drop {digits : List Char} {places : Nat}
    (hdigits : ∀ c ∈ digits, c.isDigit = true) (hplaces : places < digits.length) :
    IsNumeral (digits.take (digits.length - places)) (digits.drop (digits.length - places)) := by
  refine ⟨fun hempty => ?_, fun c hc => hdigits c (List.mem_of_mem_take hc),
    fun c hc => hdigits c (List.mem_of_mem_drop hc)⟩
  have hnone := congrArg List.length hempty
  rw [List.length_take, List.length_nil] at hnone
  omega

/-- Plain positional notation gives a numeral, and the numeral stands for the number. -/
theorem exists_numeral_of_nonneg (n : Decimal) (hunsigned : n.negative = false)
    (hexponent : n.exponent ≤ 0) :
    ∃ whole fraction, IsNumeral whole fraction ∧
      positional (Nat.toDigits 10 n.coefficient) (-n.exponent).toNat = numeral whole fraction ∧
      ofNumeral whole fraction = n := by
  obtain ⟨places, hplaces⟩ : ∃ places : Nat, n.exponent = -places :=
    ⟨(-n.exponent).toNat, by omega⟩
  have hcount : (-n.exponent).toNat = places := by omega
  -- the digits, with zeros before them if there are too few
  obtain ⟨filled, hfilled⟩ : ∃ filled, filled = List.replicate
      (places + 1 - (Nat.toDigits 10 n.coefficient).length) '0' ++ Nat.toDigits 10 n.coefficient :=
    ⟨_, rfl⟩
  have hlength : places < filled.length := by
    rw [hfilled, List.length_append, List.length_replicate]
    omega
  have hdigits : ∀ c ∈ filled, c.isDigit = true := by
    intro c hc
    rw [hfilled] at hc
    rcases List.mem_append.mp hc with hc | hc
    · rw [List.eq_of_mem_replicate hc]
      decide
    · exact Nat.isDigit_of_mem_toDigits (by decide) (by decide) hc
  have hvalue : Nat.ofDigitChars 10 filled 0 = n.coefficient := by
    rw [hfilled, Nat.ofDigitChars_append, Nat.ofDigitChars_replicate_zero, Nat.mul_zero,
      Nat.ofDigitChars_ten_toDigits]
  have hfraction : (filled.drop (filled.length - places)).length = places := by
    rw [List.length_drop]
    omega
  refine ⟨filled.take (filled.length - places), filled.drop (filled.length - places),
    isNumeral_take_drop hdigits hlength, ?_, ?_⟩
  · unfold positional numeral
    rw [hcount, ← hfilled]
    by_cases hnone : places = 0
    · have hdrop : filled.drop (filled.length - places) = [] :=
        List.length_eq_zero_iff.mp (hfraction.trans hnone)
      rw [if_pos hnone, if_pos hdrop, hnone, Nat.sub_zero, List.take_length]
    · have hdrop : filled.drop (filled.length - places) ≠ [] := by
        intro hempty
        rw [hempty] at hfraction
        exact hnone hfraction.symm
      rw [if_neg hnone, if_neg hdrop]
  · unfold ofNumeral
    rw [List.take_append_drop, hvalue, hfraction, ← hplaces, ← hunsigned]

end QuoteStack.Decimal
