import Mathlib.Data.List.Forall2
import QuoteStack.Proofs.Logging.History
import QuoteStack.Proofs.Text.Numeral

/-!
How log levels are read. A text counts without the blanks around it and in upper case: it spells a
number, or it is the name of a level, or the default stands for it. A text of digit signs is taken
for a number and may spell none, and then logging is left half set up: the handler is replaced, and
level and propagation are not. The main statement is `configure_completes_iff_readable`.
-/

namespace QuoteStack

open Text

namespace Text

/-! ## Rows of digit signs -/

theorem not_isBlank_of_isDigitSign {c : Char} (h : isDigitSign c = true) : isBlank c = false := by
  have hcodes : ∀ code ∈ blankCodes, isDigitSign (Char.ofNat code) = false := by decide
  by_contra hblank
  rw [Bool.not_eq_false, isBlank, List.contains_iff_mem] at hblank
  have hnot := hcodes _ hblank
  rw [Char.ofNat_toNat, h] at hnot
  cases hnot

/-- The characters of a text are decimal digits of these values. -/
def IsDecimals (text : List Char) (digits : List Nat) : Prop :=
  List.Forall₂ (fun c digit => digitValue? c = some digit) text digits

theorem isDigitRow_iff_of_isDigitSign {text : List Char} {digits : List Nat}
    (hall : ∀ c ∈ text, isDigitSign c = true) :
    IsDigitRow text digits ↔ IsDecimals text digits ∧ text ≠ [] := by
  constructor
  · intro h
    refine ⟨?_, ?_⟩
    · induction h with
      | last hvalue => exact .cons hvalue .nil
      | digit hvalue _ ih => exact .cons hvalue (ih fun c hc => hall c (List.mem_cons_of_mem _ hc))
      | underscore hvalue _ _ =>
        -- an underscore is no digit sign
        have hsign := hall '_' (List.mem_cons_of_mem _ List.mem_cons_self)
        rw [show isDigitSign '_' = false by decide] at hsign
        cases hsign
    · obtain ⟨c, digit, rest, rfl, -⟩ := h.exists_head
      exact List.cons_ne_nil c rest
  · rintro ⟨h, hne⟩
    clear hall
    induction h with
    | nil => exact absurd rfl hne
    | @cons c digit rest digits hvalue hrest ih =>
      cases hrest with
      | nil => exact .last hvalue
      | cons _ _ => exact .digit hvalue (ih (List.cons_ne_nil _ _))

/-- A text of digit signs has no sign before it, and no underscores. -/
theorem isInteger_iff_of_isDigitSign {text : List Char}
    (hall : ∀ c ∈ text, isDigitSign c = true) (n : Int) :
    IsInteger text n ↔ text ≠ [] ∧
      ∃ digits, IsDecimals text digits ∧ digits.length ≤ maxNumeralDigits ∧ n = ofDigits digits := by
  constructor
  · intro h
    cases h with
    | @unsigned _ digits row length =>
      obtain ⟨hdecimals, hne⟩ := (isDigitRow_iff_of_isDigitSign hall).mp row
      exact ⟨hne, digits, hdecimals, length, rfl⟩
    | plus _ _ =>
      have hsign := hall '+' List.mem_cons_self
      rw [show isDigitSign '+' = false by decide] at hsign
      cases hsign
    | minus _ _ =>
      have hsign := hall '-' List.mem_cons_self
      rw [show isDigitSign '-' = false by decide] at hsign
      cases hsign
  · rintro ⟨hne, digits, hdecimals, hlength, rfl⟩
    exact .unsigned ((isDigitRow_iff_of_isDigitSign hall).mpr ⟨hdecimals, hne⟩) hlength

theorem isTight_of_isDigitSign {text : List Char} (hall : ∀ c ∈ text, isDigitSign c = true) :
    IsTight text where
  head c hc := not_isBlank_of_isDigitSign (hall c (List.mem_of_head? hc))
  last c hc := not_isBlank_of_isDigitSign (hall c (List.mem_of_getLast? hc))

theorem IsDecimals.isDigitSign {text : List Char} {digits : List Nat}
    (h : IsDecimals text digits) : ∀ c ∈ text, isDigitSign c = true := by
  induction h with
  | nil => exact List.forall_mem_nil _
  | cons hvalue _ ih =>
    refine List.forall_mem_cons.mpr ⟨?_, ih⟩
    rw [Text.isDigitSign, hvalue]
    rfl

/-- All characters of a text are decimal digits exactly if they have values. -/
theorem exists_isDecimals_iff {text : List Char} :
    (∃ digits, IsDecimals text digits) ↔ ∀ c ∈ text, digitValue? c ≠ none := by
  induction text with
  | nil => exact iff_of_true ⟨[], .nil⟩ (List.forall_mem_nil _)
  | cons c rest ih =>
    rw [List.forall_mem_cons, ← ih]
    constructor
    · rintro ⟨digits, h⟩
      cases h with
      | cons hvalue hrest => exact ⟨by rw [hvalue]; exact Option.some_ne_none _, _, hrest⟩
    · rintro ⟨hvalue, digits, hrest⟩
      obtain ⟨digit, hdigit⟩ := Option.ne_none_iff_exists'.mp hvalue
      exact ⟨digit :: digits, .cons hdigit hrest⟩

end Text

namespace Logging

/-- The text of a level as it counts. -/
def levelText (s : String) : List Char :=
  upperCase (trim s.toList)

/-- A text of digit signs is taken for a number. -/
def LooksNumeric (text : List Char) : Prop :=
  text ≠ [] ∧ ∀ c ∈ text, isDigitSign c = true

namespace LevelForm

/-- What a level stands for. -/
inductive Means (default : Severity) : LevelForm → Severity → Prop where
  | missing : Means default .missing default
  | number (n : Int) : Means default (.number n) n
  | numeral {s : String} {digits : List Nat} (nonempty : levelText s ≠ [])
      (decimals : IsDecimals (levelText s) digits) (length : digits.length ≤ maxNumeralDigits) :
      Means default (.text s) (ofDigits digits)
  | name {s name : String} {n : Severity} (text : levelText s = name.toList)
      (mem : (name, n) ∈ namedLevels) : Means default (.text s) n
  | other {s : String} (text : ¬ LooksNumeric (levelText s))
      (names : ∀ name n, (name, n) ∈ namedLevels → levelText s ≠ name.toList) :
      Means default (.text s) default

/-- A text is unreadable if it is taken for a number and has a digit sign that is no decimal digit,
or too many digits. -/
def IsUnreadable : LevelForm → Prop
  | .text s => LooksNumeric (levelText s) ∧
      ((∃ c ∈ levelText s, digitValue? c = none) ∨ maxNumeralDigits < (levelText s).length)
  | _ => False

end LevelForm

/-! ## Reading -/

theorem looksNumeric_iff {text : List Char} :
    LooksNumeric text ↔ (!text.isEmpty && text.all isDigitSign) = true := by
  rw [Bool.and_eq_true, Bool.not_eq_true', List.isEmpty_eq_false_iff, List.all_eq_true]
  exact Iff.rfl

/-- A text that is taken for a number is read as the number it spells. -/
theorem readLevel_of_looksNumeric (default : Severity) {s : String}
    (h : LooksNumeric (levelText s)) (n : Severity) :
    readLevel default (.text s) = .ok n ↔ readInteger (levelText s) = .ok n := by
  rw [looksNumeric_iff] at h
  unfold levelText at h ⊢
  simp only [readLevel, h, if_true]
  rcases readInteger (upperCase (trim s.toList)) with (_ | digits) | value
  · exact iff_of_false nofun nofun
  · exact iff_of_false nofun nofun
  · simp only [Except.ok.injEq]

/-- Any other text is looked up among the names of levels. -/
theorem readLevel_of_not_looksNumeric (default : Severity) {s : String}
    (h : ¬ LooksNumeric (levelText s)) :
    readLevel default (.text s) =
      .ok ((namedLevels.lookup (String.ofList (levelText s))).getD default) := by
  rw [looksNumeric_iff, Bool.not_eq_true] at h
  unfold levelText at h ⊢
  simp only [readLevel, h, Bool.false_eq_true, if_false]

/-- The name of a level stands for it, since the names are different. -/
theorem lookup_namedLevels_eq_some_iff {name : String} {n : Severity} :
    namedLevels.lookup name = some n ↔ (name, n) ∈ namedLevels := by
  constructor
  · intro h
    obtain ⟨before, after, hsplit, -⟩ := List.lookup_eq_some_iff.mp h
    rw [hsplit]
    exact List.mem_append_right _ List.mem_cons_self
  · have hall : ∀ entry ∈ namedLevels, namedLevels.lookup entry.1 = some entry.2 := by decide
    exact hall (name, n)

theorem not_looksNumeric_of_mem {name : String} {n : Severity} (h : (name, n) ∈ namedLevels) :
    ¬ LooksNumeric name.toList := by
  have hall : ∀ entry ∈ namedLevels,
      (!entry.1.toList.isEmpty && entry.1.toList.all isDigitSign) = false := by decide
  rw [looksNumeric_iff, hall _ h]
  exact Bool.false_ne_true

/-- A text that is taken for a number stands for the number it spells, if it spells one. -/
theorem LevelForm.means_iff_of_looksNumeric {default : Severity} {s : String}
    (h : LooksNumeric (levelText s)) {n : Severity} :
    Means default (.text s) n ↔ ∃ digits, IsDecimals (levelText s) digits ∧
      digits.length ≤ maxNumeralDigits ∧ n = ofDigits digits := by
  constructor
  · intro hmeans
    cases hmeans with
    | numeral _ hdecimals hlength => exact ⟨_, hdecimals, hlength, rfl⟩
    | name htext hmem =>
      rw [htext] at h
      exact absurd h (not_looksNumeric_of_mem hmem)
    | other hother _ => exact absurd h hother
  · rintro ⟨digits, hdecimals, hlength, rfl⟩
    exact .numeral h.1 hdecimals hlength

/-- Any other text stands for the level of its name, or for the default. -/
theorem LevelForm.means_iff_of_not_looksNumeric {default : Severity} {s : String}
    (h : ¬ LooksNumeric (levelText s)) {n : Severity} :
    Means default (.text s) n ↔
      (namedLevels.lookup (String.ofList (levelText s))).getD default = n := by
  have hname : (String.ofList (levelText s)).toList = levelText s := String.toList_ofList
  cases hlookup : namedLevels.lookup (String.ofList (levelText s)) with
  | none =>
    -- a text that is not found is the name of no level
    have hnames : ∀ name n, (name, n) ∈ namedLevels → levelText s ≠ name.toList := by
      intro name n hmem htext
      rw [htext, String.ofList_toList, lookup_namedLevels_eq_some_iff.mpr hmem] at hlookup
      cases hlookup
    constructor
    · intro hmeans
      cases hmeans with
      | numeral hne hdecimals _ => exact absurd ⟨hne, hdecimals.isDigitSign⟩ h
      | name htext hmem => exact absurd htext (hnames _ _ hmem)
      | other _ _ => rfl
    · rintro rfl
      exact .other h hnames
  | some level =>
    have hlevel := lookup_namedLevels_eq_some_iff.mp hlookup
    constructor
    · intro hmeans
      cases hmeans with
      | numeral hne hdecimals _ => exact absurd ⟨hne, hdecimals.isDigitSign⟩ h
      | name htext hmem =>
        -- and no name is given to two levels
        rw [htext, String.ofList_toList, lookup_namedLevels_eq_some_iff.mpr hmem] at hlookup
        exact (Option.some.inj hlookup).symm
      | other _ hnames => exact absurd hname.symm (hnames _ _ hlevel)
    · rintro rfl
      exact .name hname.symm hlevel

/-- A level is read as what it stands for. -/
theorem readLevel_eq_ok_iff (default : Severity) (form : LevelForm) (n : Severity) :
    readLevel default form = .ok n ↔ form.Means default n := by
  cases form with
  | missing =>
    constructor
    · intro h
      rw [← Except.ok.inj h]
      exact .missing
    · intro h
      cases h
      rfl
  | number value =>
    constructor
    · intro h
      rw [← Except.ok.inj h]
      exact .number value
    · intro h
      cases h
      rfl
  | text s =>
    by_cases hnumeric : LooksNumeric (levelText s)
    · rw [readLevel_of_looksNumeric default hnumeric,
        readInteger_eq_ok_iff (isTight_of_isDigitSign hnumeric.2),
        isInteger_iff_of_isDigitSign hnumeric.2, LevelForm.means_iff_of_looksNumeric hnumeric]
      exact and_iff_right hnumeric.1
    · rw [readLevel_of_not_looksNumeric default hnumeric, Except.ok.injEq,
        LevelForm.means_iff_of_not_looksNumeric hnumeric]

/-- What a text stands for is defined unless it is unreadable. -/
theorem LevelForm.exists_means_iff (default : Severity) (form : LevelForm) :
    (∃ n, form.Means default n) ↔ ¬ form.IsUnreadable := by
  cases form with
  | missing => exact iff_of_true ⟨_, .missing⟩ not_false
  | number n => exact iff_of_true ⟨_, .number n⟩ not_false
  | text s =>
    by_cases hnumeric : LooksNumeric (levelText s)
    · simp only [means_iff_of_looksNumeric hnumeric]
      constructor
      · rintro ⟨n, digits, hdecimals, hlength, -⟩ ⟨-, ⟨c, hc, hnone⟩ | hlong⟩
        · exact exists_isDecimals_iff.mp ⟨digits, hdecimals⟩ c hc hnone
        · rw [hdecimals.length_eq] at hlong
          omega
      · intro hreadable
        have hvalues : ∀ c ∈ levelText s, digitValue? c ≠ none := by
          intro c hc hnone
          exact hreadable ⟨hnumeric, Or.inl ⟨c, hc, hnone⟩⟩
        obtain ⟨digits, hdecimals⟩ := exists_isDecimals_iff.mpr hvalues
        have hlength : digits.length ≤ maxNumeralDigits := by
          by_contra hlong
          rw [← hdecimals.length_eq] at hlong
          exact hreadable ⟨hnumeric, Or.inr (Nat.lt_of_not_le hlong)⟩
        exact ⟨_, digits, hdecimals, hlength, rfl⟩
    · exact iff_of_true ⟨_, (means_iff_of_not_looksNumeric hnumeric).mpr rfl⟩ fun h => hnumeric h.1

/-! ## Setting up -/

/-- A level is read as what it stands for, with any default; it cannot be read exactly if it is a
text that is taken for a number and spells none. Setting up with a form of log lines completes exactly
if the level can be read: then the new handler is attached, the level is as read, with a warning as
default, and records are not passed on. Otherwise the new handler is attached too, and level and
propagation are as before. Nothing is written either way. -/
theorem configure_completes_iff_readable (form : LevelForm) :
    (∀ default, (∀ n, readLevel default form = .ok n ↔ form.Means default n) ∧
      ((∃ n, form.Means default n) ↔ ¬ form.IsUnreadable)) ∧
    ∀ (hub : Hub) (format? : Option String) (format : Format) (stream? : Option Nat),
      Hub.formatOf format? = .ok format →
      let handlers := hub.foreigns ++ [.own (stream?.getD hub.errorStream) format]
      (∀ n, form.Means .warning n →
        hub.configure form format? stream? =
          (none, { hub with handlers, level := n, propagates := false })) ∧
      (form.IsUnreadable → ∃ fault,
        hub.configure form format? stream? = (some (.level fault), { hub with handlers })) := by
  refine ⟨?_, ?_⟩
  · intro default
    exact ⟨readLevel_eq_ok_iff default form, form.exists_means_iff default⟩
  · intro hub format? format stream? hformat handlers
    refine ⟨?_, ?_⟩
    · intro n hmeans
      have hread := (readLevel_eq_ok_iff .warning form n).mpr hmeans
      simp only [Hub.configure, hformat, hread, hub.filter_not_isReplaced, handlers]
    · intro hunreadable
      cases hread : readLevel .warning form with
      | ok n =>
        have hmeans := (readLevel_eq_ok_iff .warning form n).mp hread
        exact absurd hunreadable ((form.exists_means_iff .warning).mp ⟨n, hmeans⟩)
      | error fault =>
        refine ⟨fault, ?_⟩
        simp only [Hub.configure, hformat, hread, hub.filter_not_isReplaced, handlers]

/-- Digits of another script spell a level; a superscript two is taken for a number and spells
none. -/
theorem configure_completes_iff_readable_of_digits :
    let hub : Hub := { handlers := [.silent, .foreign 1], level := 10 }
    let handlers := [.foreign 1, .own 2 .standard]
    hub.configure (.text " ٣٠ ") none (some 2) =
        (none, { hub with handlers, level := 30, propagates := false }) ∧
      ∃ fault, hub.configure (.text " 1² ") none (some 2) =
        (some (.level fault), { hub with handlers }) := by
  intro hub handlers
  obtain ⟨hread, hreadable⟩ := configure_completes_iff_readable (.text " ٣٠ ")
  obtain ⟨-, hunreadable⟩ := configure_completes_iff_readable (.text " 1² ")
  obtain ⟨hcompletes, -⟩ := hreadable hub none .standard (some 2) rfl
  obtain ⟨-, hfails⟩ := hunreadable hub none .standard (some 2) rfl
  refine ⟨hcompletes 30 (((hread .warning).1 30).mp rfl), hfails ?_⟩
  exact ⟨looksNumeric_iff.mpr (by decide), Or.inl ⟨'²', by decide, by decide⟩⟩

/-- A superscript two is the name of no level, and reading it as a level fails instead of giving the
default. Setting up with it attaches the new handler, and leaves level and propagation behind. -/
theorem configure_with_superscript_is_half_done :
    (∀ default, readLevel default (.text "²") = .error (.malformed "²")) ∧
      namedLevels.lookup "²" = none ∧
      Hub.configure {} (.text "²") none (some 1) =
        (some (.level (.malformed "²")),
          { handlers := [.own 1 .standard], level := 0, propagates := true }) :=
  ⟨fun _ => rfl, rfl, rfl⟩

end Logging

end QuoteStack
