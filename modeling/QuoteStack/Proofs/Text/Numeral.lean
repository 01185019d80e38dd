import Mathlib.Data.List.DropRight
import QuoteStack.Text.Numeral

/-!
The grammar of integers. An integer is a row of decimal digits of any scripts, with single
underscores between them and with a sign before it, and it has a limited number of digits. A text
without blanks at its ends is read as a value exactly if it is an integer of that value; trimming a
text leaves no blanks at its ends. The main statement is `readInteger_eq_ok_iff`.
-/

namespace QuoteStack.Text

/-- A row of decimal digits with single underscores between them, and the values of the digits. -/
inductive IsDigitRow : List Char → List Nat → Prop where
  | last {c : Char} {digit : Nat} (value : digitValue? c = some digit) : IsDigitRow [c] [digit]
  | digit {c : Char} {digit : Nat} {text : List Char} {digits : List Nat}
      (value : digitValue? c = some digit) (rest : IsDigitRow text digits) :
      IsDigitRow (c :: text) (digit :: digits)
  | underscore {c : Char} {digit : Nat} {text : List Char} {digits : List Nat}
      (value : digitValue? c = some digit) (rest : IsDigitRow text digits) :
      IsDigitRow (c :: '_' :: text) (digit :: digits)

/-- An integer as it is written, and its value. -/
inductive IsInteger : List Char → Int → Prop where
  | unsigned {text : List Char} {digits : List Nat} (row : IsDigitRow text digits)
      (length : digits.length ≤ maxNumeralDigits) : IsInteger text (ofDigits digits)
  | plus {text : List Char} {digits : List Nat} (row : IsDigitRow text digits)
      (length : digits.length ≤ maxNumeralDigits) : IsInteger ('+' :: text) (ofDigits digits)
  | minus {text : List Char} {digits : List Nat} (row : IsDigitRow text digits)
      (length : digits.length ≤ maxNumeralDigits) : IsInteger ('-' :: text) (-(ofDigits digits : Int))

/-! ## Rows of digits -/

/-- A row starts with a digit. -/
theorem IsDigitRow.exists_head {text : List Char} {digits : List Nat}
    (h : IsDigitRow text digits) :
    ∃ c digit rest, text = c :: rest ∧ digitValue? c = some digit := by
  cases h with
  | last hvalue => exact ⟨_, _, _, rfl, hvalue⟩
  | digit hvalue _ => exact ⟨_, _, _, rfl, hvalue⟩
  | underscore hvalue _ => exact ⟨_, _, _, rfl, hvalue⟩

/-- What may stand behind a digit: nothing, more digits, or an underscore and more digits. -/
def IsRowTail (text : List Char) (digits : List Nat) : Prop :=
  (text = [] ∧ digits = []) ∨ IsDigitRow text digits ∨
    ∃ rest, text = '_' :: rest ∧ IsDigitRow rest digits

/-- A digit with what may stand behind it is a row. -/
theorem IsRowTail.row {c : Char} {digit : Nat} {text : List Char} {digits : List Nat}
    (hvalue : digitValue? c = some digit) (h : IsRowTail text digits) :
    IsDigitRow (c :: text) (digit :: digits) := by
  rcases h with ⟨rfl, rfl⟩ | hrow | ⟨rest, rfl, hrow⟩
  · exact .last hvalue
  · exact .digit hvalue hrow
  · exact .underscore hvalue hrow

/-- The digits that are split off a text form a row, or what may stand behind a digit. -/
theorem row_of_digitGroups? {afterDigit : Bool} {text after : List Char} {digits : List Nat}
    (h : digitGroups? afterDigit text = some (digits, after)) :
    ∃ row, text = row ++ after ∧
      if afterDigit then IsRowTail row digits else IsDigitRow row digits := by
  fun_induction digitGroups? afterDigit text generalizing digits after with
  | case1 =>
    cases h
    exact ⟨[], rfl, Or.inl ⟨rfl, rfl⟩⟩
  | case2 => cases h
  | case3 afterDigit c rest digit hvalue ih =>
    obtain ⟨⟨others, behind⟩, hrest, heq⟩ := Option.map_eq_some_iff.mp h
    obtain ⟨rfl, rfl⟩ := Prod.mk.inj heq
    obtain ⟨row, rfl, htail⟩ := ih hrest
    have hrow : IsDigitRow (c :: row) (digit :: others) := IsRowTail.row hvalue htail
    refine ⟨c :: row, rfl, ?_⟩
    split
    · exact Or.inr (Or.inl hrow)
    · exact hrow
  | case4 => cases h
  | case5 afterDigit c rest hnone hafter hunderscore ih =>
    obtain ⟨row, rfl, hrow⟩ := ih h
    obtain rfl : c = '_' := by simpa using hunderscore
    obtain rfl : afterDigit = true := by simpa using hafter
    exact ⟨'_' :: row, rfl, Or.inr (Or.inr ⟨row, rfl, hrow⟩)⟩
  | case6 afterDigit c rest hnone hafter hunderscore =>
    cases h
    obtain rfl : afterDigit = true := by simpa using hafter
    exact ⟨[], rfl, Or.inl ⟨rfl, rfl⟩⟩

/-- The digits of a row are split off it, and nothing remains. -/
theorem IsDigitRow.digitGroups?_eq {text : List Char} {digits : List Nat}
    (h : IsDigitRow text digits) (afterDigit : Bool) :
    digitGroups? afterDigit text = some (digits, []) := by
  have hnone : digitValue? '_' = none := by decide
  induction h generalizing afterDigit with
  | last hvalue => simp [digitGroups?, hvalue]
  | digit hvalue _ ih => simp [digitGroups?, hvalue, ih]
  | underscore hvalue _ ih => simp [digitGroups?, hvalue, hnone, ih]

/-! ## Integers -/

/-- No blank stands at the ends of a text. -/
structure IsTight (text : List Char) : Prop where
  head : ∀ c, text.head? = some c → isBlank c = false
  last : ∀ c, text.getLast? = some c → isBlank c = false

theorem isNumeralBlank_of_not_isBlank {c : Char} (h : isBlank c = false) :
    isNumeralBlank c = false := by
  rw [isNumeralBlank, h, Bool.false_and]

theorem IsTight.dropWhile_eq {text : List Char} (h : IsTight text) :
    text.dropWhile isNumeralBlank = text := by
  cases text with
  | nil => rfl
  | cons c rest =>
    have hc := isNumeralBlank_of_not_isBlank (h.head c rfl)
    rw [List.dropWhile_cons, hc]
    rfl

/-- Nothing but the digits stands behind the sign, if only blanks could. -/
theorem IsTight.eq_nil_of_all {before after : List Char} (h : IsTight (before ++ after))
    (hall : after.all isNumeralBlank = true) : after = [] := by
  by_contra hne
  have hmem := List.getLast_mem hne
  have hblank := List.all_eq_true.mp hall _ hmem
  have hlast : (before ++ after).getLast? = some (after.getLast hne) := by
    rw [List.getLast?_append_of_ne_nil _ hne, List.getLast?_eq_getLast_of_ne_nil hne]
  rw [isNumeralBlank_of_not_isBlank (h.last _ hlast)] at hblank
  cases hblank

/-- A text that starts with a digit has no sign. -/
theorem IsDigitRow.splitSign_eq {text : List Char} {digits : List Nat}
    (h : IsDigitRow text digits) : splitSign text = (false, text) := by
  obtain ⟨c, digit, rest, rfl, hvalue⟩ := h.exists_head
  have hminus : c ≠ '-' := by
    rintro rfl
    cases hvalue.symm.trans (show digitValue? '-' = none by decide)
  have hplus : c ≠ '+' := by
    rintro rfl
    cases hvalue.symm.trans (show digitValue? '+' = none by decide)
  unfold splitSign
  split
  · next heq => exact absurd (List.cons.inj heq).1 hminus
  · next heq => exact absurd (List.cons.inj heq).1 hplus
  · rfl

/-- With its sign split off, a text is an integer if the rest is a row of digits. -/
theorem isInteger_of_splitSign {text row : List Char} {digits : List Nat} {negative : Bool}
    (hsplit : splitSign text = (negative, row)) (hrow : IsDigitRow row digits)
    (hlength : digits.length ≤ maxNumeralDigits) :
    IsInteger text (if negative then -(ofDigits digits : Int) else ofDigits digits) := by
  unfold splitSign at hsplit
  split at hsplit
  · obtain ⟨rfl, rfl⟩ := Prod.mk.inj hsplit
    exact .minus hrow hlength
  · obtain ⟨rfl, rfl⟩ := Prod.mk.inj hsplit
    exact .plus hrow hlength
  · obtain ⟨rfl, rfl⟩ := Prod.mk.inj hsplit
    exact .unsigned hrow hlength

/-- A text is its sign and what stands behind it. -/
theorem exists_sign (text : List Char) : ∃ sign, text = sign ++ (splitSign text).2 := by
  unfold splitSign
  split
  · exact ⟨['-'], rfl⟩
  · exact ⟨['+'], rfl⟩
  · exact ⟨[], rfl⟩

/-- Reading what stands behind the sign. -/
theorem readInteger_of_row {text row : List Char} {digits : List Nat} {negative : Bool}
    (htight : IsTight text) (hsplit : splitSign text = (negative, row))
    (hrow : IsDigitRow row digits) (hlength : digits.length ≤ maxNumeralDigits) :
    readInteger text =
      .ok (if negative then -(ofDigits digits : Int) else ofDigits digits) := by
  have hgroups := hrow.digitGroups?_eq false
  rw [readInteger_eq, htight.dropWhile_eq, hsplit]
  simp only [hgroups, Nat.not_lt.mpr hlength, if_false, List.all_nil, if_true]

/-- A text without blanks at its ends is read as the integers are written, and nothing else is. -/
theorem readInteger_eq_ok_iff {text : List Char} (htight : IsTight text) (n : Int) :
    readInteger text = .ok n ↔ IsInteger text n := by
  constructor
  · intro h
    rw [readInteger_eq, htight.dropWhile_eq] at h
    obtain ⟨sign, htext⟩ := exists_sign text
    generalize hsplit : splitSign text = split at h htext
    obtain ⟨negative, body⟩ := split
    dsimp only at h htext
    split at h
    · cases h
    · next digits after hgroups =>
      obtain ⟨row, rfl, hrow⟩ := row_of_digitGroups? hgroups
      by_cases hlong : maxNumeralDigits < digits.length
      · rw [if_pos hlong] at h
        cases h
      · rw [if_neg hlong] at h
        by_cases hall : after.all isNumeralBlank = true
        · rw [if_pos hall] at h
          -- blanks behind the digits would stand at the end of the text
          obtain rfl : after = [] := by
            rw [htext, ← List.append_assoc] at htight
            exact htight.eq_nil_of_all hall
          rw [List.append_nil] at hsplit
          rw [← Except.ok.inj h]
          exact isInteger_of_splitSign hsplit hrow (Nat.not_lt.mp hlong)
        · rw [if_neg hall] at h
          cases h
  · intro h
    cases h with
    | unsigned hrow hlength => exact readInteger_of_row htight hrow.splitSign_eq hrow hlength
    | plus hrow hlength => exact readInteger_of_row htight rfl hrow hlength
    | minus hrow hlength => exact readInteger_of_row htight rfl hrow hlength

/-- What is read as an integer is short enough to be a limit. -/
theorem exists_readNumeral_of_readInteger {text : List Char} {n : Int}
    (h : readInteger text = .ok n) : ∃ value, readNumeral text = .ok value ∧ value.value = n := by
  unfold readInteger at h
  cases hread : readNumeral text with
  | error fault =>
    rw [hread] at h
    cases h
  | ok value =>
    rw [hread] at h
    exact ⟨value, rfl, Except.ok.inj h⟩

/-! ## Trimmed texts -/

theorem trim_eq_nil_iff {text : List Char} : trim text = [] ↔ ∀ c ∈ text, isBlank c = true := by
  have htrim : trim text = (text.dropWhile isBlank).rdropWhile isBlank := rfl
  rw [htrim, List.rdropWhile_eq_nil_iff]
  constructor
  · intro h c hc
    by_cases hnone : text.dropWhile isBlank = []
    · exact List.dropWhile_eq_nil_iff.mp hnone c hc
    · -- the first character that is left is no blank
      have hhead := List.head_dropWhile_not isBlank hnone
      rw [h _ (List.head_mem hnone)] at hhead
      cases hhead
  · intro h c hc
    exact h c ((List.dropWhile_suffix isBlank).mem hc)

/-- Trimming leaves no blank at the ends. -/
theorem isTight_trim (text : List Char) : IsTight (trim text) := by
  have htrim : trim text = (text.dropWhile isBlank).rdropWhile isBlank := rfl
  obtain ⟨blanks, hblanks⟩ := List.rdropWhile_prefix isBlank (text.dropWhile isBlank)
  refine ⟨fun c hc => ?_, fun c hc => ?_⟩
  · -- trimming at the end leaves the first character, if it leaves any
    have hhead : (text.dropWhile isBlank).head? = some c := by
      rw [← hblanks, ← htrim, List.head?_append, hc, Option.some_or]
    have hne : text.dropWhile isBlank ≠ [] := by
      intro hnil
      rw [hnil] at hhead
      cases hhead
    rw [List.head?_eq_some_head hne] at hhead
    rw [← Option.some.inj hhead]
    exact List.head_dropWhile_not isBlank hne
  · have hne : (text.dropWhile isBlank).rdropWhile isBlank ≠ [] := by
      intro hnil
      rw [htrim, hnil] at hc
      cases hc
    rw [htrim, List.getLast?_eq_getLast_of_ne_nil hne] at hc
    have hlast := List.rdropWhile_last_not isBlank (text.dropWhile isBlank) hne
    rw [Option.some.inj hc] at hlast
    exact Bool.eq_false_iff.mpr hlast

end QuoteStack.Text
