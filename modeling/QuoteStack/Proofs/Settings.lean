import QuoteStack.Proofs.Run.Precision
import QuoteStack.Proofs.Text.Numeral
import QuoteStack.Settings

/-!
How limits are read. A text that is a positive integer between blanks is taken as that integer; for
a missing or blank text the default stands, and for any other text the default stands and there is
one warning. So limits are positive, and under them the precision is to blame for no fault unless
it is greater than any precision may be. The main statement is `load_reads_limits`.
-/

namespace QuoteStack

open Text

/-- An integer is not written with nothing. -/
theorem Text.IsInteger.ne_nil {text : List Char} {n : Int} (h : IsInteger text n) : text ≠ [] := by
  cases h with
  | unsigned hrow _ =>
    obtain ⟨c, digit, rest, rfl, -⟩ := hrow.exists_head
    exact List.cons_ne_nil c rest
  | plus _ _ => exact List.cons_ne_nil _ _
  | minus _ _ => exact List.cons_ne_nil _ _

namespace Settings

/-- A warning that names a setting. -/
def Warning.IsAbout (name : String) (warning : Warning) : Prop :=
  warning.record.severity = .warning ∧ ∃ rest, warning.record.message = name ++ "=" ++ rest

/-- What a limit is set to, and the warnings about it, where a text may be given for it. -/
structure ReadsLimit (name : String) (default : Int) (text? : Option String) (value : Int)
    (warnings : List Warning) : Prop where
  /-- A positive integer counts, without the blanks around it. -/
  positive : ∀ text n, text? = some text → IsInteger (trim text.toList) n → 1 ≤ n →
    value = n ∧ warnings = []
  /-- A missing text is no reason for a warning, nor is a text of blanks. -/
  blank : (∀ text, text? = some text → ∀ c ∈ text.toList, isBlank c = true) →
    value = default ∧ warnings = []
  /-- Any other text is refused. -/
  refused : ∀ text, text? = some text → (∃ c ∈ text.toList, isBlank c = false) →
    (∀ n, IsInteger (trim text.toList) n → n < 1) →
      value = default ∧ ∃ warning, warnings = [warning] ∧ warning.IsAbout name

variable (name : String) (default : ShortInteger) {text : String}

/-! ## One limit -/

theorem readLimit_of_blank (h : ∀ c ∈ text.toList, isBlank c = true) :
    readLimit name (some text) default = (default, none) := by
  simp only [readLimit, trim_eq_nil_iff.mpr h, List.isEmpty_nil, if_true]

theorem readLimit_of_positive {n : Int} (h : IsInteger (trim text.toList) n) (hn : 1 ≤ n) :
    ∃ value, value.value = n ∧ readLimit name (some text) default = (value, none) := by
  obtain ⟨value, hread, rfl⟩ := exists_readNumeral_of_readInteger
    ((readInteger_eq_ok_iff (isTight_trim text.toList) n).mpr h)
  have hnonempty : (trim text.toList).isEmpty = false := by
    rw [List.isEmpty_eq_false_iff]
    exact h.ne_nil
  have hpositive : ¬ value.value < 1 := by omega
  refine ⟨value, rfl, ?_⟩
  simp only [readLimit, hnonempty, hread, hpositive, if_false, Bool.false_eq_true]

/-- A text that is neither blank nor a positive integer is refused, with a warning. -/
theorem readLimit_of_refused (hblank : ∃ c ∈ text.toList, isBlank c = false)
    (h : ∀ n, IsInteger (trim text.toList) n → n < 1) :
    ∃ warning, readLimit name (some text) default = (default, some warning) ∧
      warning.IsAbout name := by
  have hnonempty : (trim text.toList).isEmpty = false := by
    rw [List.isEmpty_eq_false_iff]
    intro hnil
    obtain ⟨c, hc, hnot⟩ := hblank
    rw [trim_eq_nil_iff.mp hnil c hc] at hnot
    cases hnot
  cases hread : readNumeral (trim text.toList) with
  | error fault =>
    refine ⟨.notInteger name text default, ?_, rfl,
      quote text ++ " is not an integer; using " ++ toString default.value, ?_⟩
    · simp only [readLimit, hnonempty, hread, Bool.false_eq_true, if_false]
    · simp only [Warning.record, Warning.message, String.append_assoc]
  | ok n =>
    have hinteger : readInteger (trim text.toList) = .ok n.value := congrArg (Except.map _) hread
    have hless : n.value < 1 :=
      h n.value ((readInteger_eq_ok_iff (isTight_trim text.toList) n.value).mp hinteger)
    refine ⟨.notPositive name n default, ?_, rfl,
      toString n.value ++ " must be positive; using " ++ toString default.value, ?_⟩
    · simp only [readLimit, hnonempty, hread, hless, Bool.false_eq_true, if_false, if_true]
    · simp only [Warning.record, Warning.message, String.append_assoc]

theorem readsLimit_readLimit (text? : Option String) :
    ReadsLimit name default text? (readLimit name text? default).1
      (readLimit name text? default).2.toList := by
  refine ⟨?_, ?_, ?_⟩
  · rintro text n rfl hinteger hn
    obtain ⟨value, hvalue, hread⟩ := readLimit_of_positive name default hinteger hn
    rw [hread]
    exact ⟨hvalue, rfl⟩
  · intro hblank
    cases text? with
    | none => exact ⟨rfl, rfl⟩
    | some text =>
      rw [readLimit_of_blank name default (hblank text rfl)]
      exact ⟨rfl, rfl⟩
  · rintro text rfl hblank hless
    obtain ⟨warning, hread, habout⟩ := readLimit_of_refused name default hblank hless
    rw [hread]
    exact ⟨rfl, warning, rfl, habout⟩

/-- A limit is positive, if its default is. -/
theorem ReadsLimit.one_le {name : String} {default : Int} {text? : Option String} {value : Int}
    {warnings : List Warning} (h : ReadsLimit name default text? value warnings)
    (hdefault : 1 ≤ default) : 1 ≤ value := by
  by_cases hblank : ∀ text, text? = some text → ∀ c ∈ text.toList, isBlank c = true
  · rw [(h.blank hblank).1]
    exact hdefault
  · simp only [not_forall, Bool.not_eq_true] at hblank
    obtain ⟨text, htext, c, hc, hnot⟩ := hblank
    by_cases hpositive : ∃ n, IsInteger (trim text.toList) n ∧ 1 ≤ n
    · obtain ⟨n, hinteger, hn⟩ := hpositive
      rw [(h.positive text n htext hinteger hn).1]
      exact hn
    · have hless : ∀ n, IsInteger (trim text.toList) n → n < 1 := by
        intro n hinteger
        by_contra hn
        exact hpositive ⟨n, hinteger, by omega⟩
      rw [(h.refused text htext ⟨c, hc, hnot⟩ hless).1]
      exact hdefault

/-! ## All settings -/

/-- Limits are read from any texts, and they are positive: each is the positive integer that is given
between blanks, or else its default, with one warning that names it if the text is not blank; the
warning about the depth comes before that about the precision. With a precision that has been read,
no program fails because the precision is below one: if a fault of a run says that the precision is
out of range, the precision is greater than any may be. That holds of all environments that bind
native procedures, and procedures of hosts that fail with plain faults of their own and not with
this one. -/
theorem load_reads_limits (lookup : String → Option String) :
    (1 ≤ (load lookup).1.maxDepth.value ∧ 1 ≤ (load lookup).1.precision) ∧
    (∃ depthWarnings precisionWarnings,
      (load lookup).2 = depthWarnings ++ precisionWarnings ∧
      ReadsLimit maxDepthName 128 (lookup maxDepthName) (load lookup).1.maxDepth depthWarnings ∧
      ReadsLimit precisionName 34 (lookup precisionName) (load lookup).1.precision
        precisionWarnings) ∧
    ∀ (host : Procedure → Prop) (m : Machine),
      let kind := fun body : Procedure => body.IsNative ∨ host body
      m.root.limits.precision = (load lookup).1.precision →
      (∀ body, host body → body.Keeps (Law.ofPrecision kind m.root.limits)) →
      (m.scope.Binds fun _ cell => cell.Holds kind) →
      ∀ program fault, (m.execute program).fault? = some fault →
        fault.origin = .arithmetic .precision →
        Decimal.maxPrecision < (load lookup).1.precision := by
  have hdepth := readsLimit_readLimit maxDepthName (.ofNat 128) (lookup maxDepthName)
  have hreads := readsLimit_readLimit precisionName (.ofNat 34) (lookup precisionName)
  have hprecision : 1 ≤ (load lookup).1.precision := hreads.one_le (by decide)
  refine ⟨⟨hdepth.one_le (by decide), hprecision⟩, ⟨_, _, rfl, hdepth, hreads⟩, ?_⟩
  intro host m kind hsame hhost hbinds program fault hfault horigin
  rw [← hsame] at hprecision ⊢
  have hopen : (Law.ofPrecision kind m.root.limits).IsOpen :=
    Law.isOpen_ofPrecision (fun items => Or.inl (Cell.IsNative.closure items)) hprecision
  have hkind : ∀ body, kind body → body.Keeps (Law.ofPrecision kind m.root.limits) := by
    rintro body (hnative | hown)
    · exact hnative.keeps hopen
    · exact hhost body hown
  exact Law.lt_of_origin_execute hkind hbinds hfault horigin

/-- A depth that is not positive is refused, and a precision that is too great is not: a division
fails because of it. -/
theorem load_reads_limits_of_enormous_precision :
    let lookup (name : String) : Option String :=
      [(maxDepthName, "-1_0"), (precisionName, " 1000000000000000000\n")].lookup name
    let settings := (load lookup).1
    let m := Machine.new { maxDepth := settings.maxDepth, precision := settings.precision }
    let program : List Instruction :=
      [.value (.block [.number (.ofNat 1), .number (.ofNat 3)]), .value (.symbol "divide")]
    settings.maxDepth.value = 128 ∧ settings.precision = 1000000000000000000 ∧
      (∃ warning, (load lookup).2 = [warning] ∧ warning.IsAbout maxDepthName) ∧
      (m.execute program).fault? = some (.external (.arithmetic .precision)) ∧
      Decimal.maxPrecision < settings.precision := by
  intro lookup settings m program
  obtain ⟨-, ⟨depthWarnings, precisionWarnings, hwarnings, hdepth, hprecision⟩, hblame⟩ :=
    load_reads_limits lookup
  have hgiven : IsInteger (trim " 1000000000000000000\n".toList) 1000000000000000000 :=
    (readInteger_eq_ok_iff (isTight_trim _) _).mp rfl
  have hnegative : ∀ n, IsInteger (trim "-1_0".toList) n → n < 1 := by
    intro n hn
    have hread := (readInteger_eq_ok_iff (isTight_trim _) n).mpr hn
    rw [show readInteger (trim "-1_0".toList) = .ok (-10) from rfl] at hread
    rw [← Except.ok.inj hread]
    decide
  obtain ⟨hvalue, rfl⟩ := hprecision.positive _ _ rfl hgiven (by decide)
  obtain ⟨hdefault, warning, rfl, habout⟩ :=
    hdepth.refused _ rfl ⟨'-', by decide, by decide⟩ hnegative
  have hfails : (m.execute program).fault? = some (.external (.arithmetic .precision)) := rfl
  have hbinds : m.scope.Binds fun _ cell => cell.Holds fun body => body.IsNative ∨ False := by
    refine Machine.binds_ofCells _ fun name cell hmem => ?_
    obtain ⟨body, rfl, -⟩ := Builtin.exists_body_of_mem_cells hmem
    exact Or.inl (.builtin hmem)
  exact ⟨hdefault, hvalue, ⟨warning, hwarnings, habout⟩, hfails,
    hblame (fun _ => False) m rfl (fun _ => False.elim) hbinds program _ hfails rfl⟩

end Settings

end QuoteStack
