import QuoteStack.CommandLine.Run
import QuoteStack.Proofs.CommandLine.Arguments
import QuoteStack.Proofs.Run.Words
import QuoteStack.Proofs.Text.Encoding

/-!
The command agrees with running program texts. Wherever the program text that the arguments ask for
comes from, the command succeeds when the text runs without a fault under the limits of the settings
and the arguments, and its stack can be written; it writes that stack then, and nothing else. A fault
is told on the last line of the errors. Whatever goes wrong, no output is written. The main statement
is `run_agrees`.
-/

namespace QuoteStack.CommandLine

/-! ## Lines -/

/-- The text consists of lines that are ended. -/
def IsLines (text : String) : Prop :=
  text = "" ∨ ∃ rest, text = rest ++ "\n"

theorem isLines_ended (text : String) : IsLines (text ++ "\n") :=
  Or.inr ⟨text, rfl⟩

theorem IsLines.append {first second : String} (h : IsLines first) (h' : IsLines second) :
    IsLines (first ++ second) := by
  rcases h' with rfl | ⟨rest, rfl⟩
  · rwa [String.append_empty]
  · exact Or.inr ⟨first ++ rest, String.append_assoc.symm⟩

theorem isLines_join {lines : List String} (h : ∀ line ∈ lines, IsLines line) :
    IsLines (String.join lines) := by
  induction lines with
  | nil => exact Or.inl rfl
  | cons line rest ih =>
    obtain ⟨hline, hrest⟩ := List.forall_mem_cons.mp h
    rw [String.join_cons]
    exact hline.append (ih hrest)

theorem isLines_of_recordLine? {particulars : Logging.Particulars} {threshold : Severity}
    {record : Record} {line : String} (h : recordLine? particulars threshold record = some line) :
    IsLines line := by
  unfold recordLine? at h
  split at h
  · obtain ⟨text, -, rfl⟩ := Option.map_eq_some_iff.mp h
    exact isLines_ended text
  · cases h

theorem isLines_of_eventLine? {particulars : Logging.Particulars} {threshold : Severity}
    {event : Event} {line : String} (h : eventLine? particulars threshold event = some line) :
    IsLines line := by
  unfold eventLine? at h
  split at h
  · next text _ => exact Option.some.inj h ▸ isLines_ended text
  · obtain ⟨record, -, hrecord⟩ := Option.bind_eq_some_iff.mp h
    exact isLines_of_recordLine? hrecord

theorem isLines_failureLines (surroundings : Surroundings) (threshold : Severity) (fault : Fault) :
    IsLines (failureLines surroundings threshold fault) := by
  unfold failureLines
  split
  · exact isLines_ended _
  · exact Or.inl rfl

/-! ## Running a text -/

/-- What is written of a stack. -/
def writtenStack (json : Bool) (values : List Value) : String :=
  if json then (Value.block values).toJson ++ "\n"
  else String.join (values.map fun v => v.render ++ "\n")

/-- A stack can be written unless it is too deep for JSON. -/
theorem writeStack_cases (jsonDepth : Nat) (json : Bool) (values : List Value) :
    (writeStack jsonDepth json values = .ok (writtenStack json values) ∧
        (json = true → ∀ v ∈ values, nestsWithin jsonDepth v = true)) ∨
      ((∃ message, writeStack jsonDepth json values = .error message) ∧
        json = true ∧ ∃ v ∈ values, nestsWithin jsonDepth v = false) := by
  unfold writeStack writtenStack
  cases json with
  | false => exact Or.inl ⟨rfl, nofun⟩
  | true =>
    rw [if_pos rfl, if_pos rfl]
    by_cases hall : values.all (nestsWithin jsonDepth) = true
    · rw [if_pos hall]
      exact Or.inl ⟨rfl, fun _ => List.all_eq_true.mp hall⟩
    · rw [if_neg hall]
      simp only [List.all_eq_true, not_forall, Bool.not_eq_true] at hall
      obtain ⟨v, hv, hdeep⟩ := hall
      exact Or.inr ⟨⟨_, rfl⟩, rfl, v, hv, hdeep⟩

/-- A text that runs without a fault leaves its stack as output, if that can be written. Otherwise
there is no output; a fault is told in a line behind all others. -/
inductive Reports (jsonDepth : Nat) (json : Bool) (outcome : Outcome) : Report → Prop where
  | succeeded {errors : String} (hnone : outcome.fault? = none)
      (hwritten : json = true → ∀ v ∈ outcome.machine.values, nestsWithin jsonDepth v = true) :
      Reports jsonDepth json outcome ⟨0, writtenStack json outcome.machine.values, errors⟩
  | tooDeep {errors : String} (hnone : outcome.fault? = none) (hjson : json = true)
      (hdeep : ∃ v ∈ outcome.machine.values, nestsWithin jsonDepth v = false) :
      Reports jsonDepth json outcome ⟨1, "", errors⟩
  | failed {before : String} {fault : Fault} (hfault : outcome.fault? = some fault)
      (hlines : IsLines before) :
      Reports jsonDepth json outcome ⟨1, "", before ++ faultLine fault.message⟩

theorem reports_runText (surroundings : Surroundings) (limits : Limits) (threshold : Severity)
    (json : Bool) (source : String) :
    Reports surroundings.jsonDepth json (runProgram limits source)
      (runText surroundings limits threshold json source) := by
  unfold runText
  generalize runProgram limits source = outcome
  have hwritten : IsLines
      (String.join (outcome.events.filterMap (eventLine? surroundings.particulars threshold))) := by
    refine isLines_join fun line hline => ?_
    obtain ⟨event, -, hevent⟩ := List.mem_filterMap.mp hline
    exact isLines_of_eventLine? hevent
  dsimp only
  cases hfault : outcome.fault? with
  | some fault =>
    exact .failed hfault (hwritten.append (isLines_failureLines surroundings threshold fault))
  | none =>
    dsimp only
    have hcases := writeStack_cases surroundings.jsonDepth json outcome.machine.values
    rcases hcases with ⟨hok, hall⟩ | ⟨⟨message, herror⟩, hdeep⟩
    · rw [hok]
      exact .succeeded hfault hall
    · rw [herror]
      exact .tooDeep hfault hdeep.1 hdeep.2

namespace Reports

variable {jsonDepth : Nat} {json : Bool} {outcome : Outcome} {report : Report}

theorem exitCode_eq_zero_iff (h : Reports jsonDepth json outcome report) :
    report.exitCode = 0 ↔ outcome.fault? = none ∧
      (json = true → ∀ v ∈ outcome.machine.values, nestsWithin jsonDepth v = true) := by
  cases h with
  | succeeded hnone hwritten => exact ⟨fun _ => ⟨hnone, hwritten⟩, fun _ => rfl⟩
  | tooDeep hnone hjson hdeep =>
    obtain ⟨v, hv, hdeep⟩ := hdeep
    refine ⟨nofun, fun ⟨_, hall⟩ => ?_⟩
    exact absurd ((hall hjson v hv).symm.trans hdeep) (by decide)
  | failed hfault hlines =>
    exact ⟨nofun, fun ⟨hnone, _⟩ => absurd (hfault.symm.trans hnone) nofun⟩

theorem output_eq (h : Reports jsonDepth json outcome report) :
    report.output =
      if report.exitCode = 0 then writtenStack json outcome.machine.values else "" := by
  cases h <;> rfl

/-- A fault is told on the last line. -/
theorem exitCode_errors_of_fault (h : Reports jsonDepth json outcome report) {fault : Fault}
    (hfault : outcome.fault? = some fault) :
    report.exitCode = 1 ∧ ∃ before, IsLines before ∧
      report.errors = before ++ "Error: " ++ fault.message ++ "\n" := by
  cases h with
  | succeeded hnone => exact absurd (hfault.symm.trans hnone) nofun
  | tooDeep hnone => exact absurd (hfault.symm.trans hnone) nofun
  | failed hother hlines =>
    obtain rfl := Option.some.inj (hfault.symm.trans hother)
    refine ⟨rfl, _, hlines, ?_⟩
    simp only [faultLine, String.append_assoc]

end Reports

/-! ## Program texts -/

/-- The options name a program text: they contain it, or it is on standard input, or in a file in
UTF-8. -/
inductive Offers (surroundings : Surroundings) (options : Options) (text : String) : Prop where
  | expression (h : options.expression? = some (.value text))
  | input (hexpression : options.expression? = none) (hpath : options.path? = some "-")
      (h : surroundings.input = .ok text)
  | file {path : String} (hexpression : options.expression? = none)
      (hpath : options.path? = some path) (hne : path ≠ "-")
      (h : surroundings.files path = some (.file text.toUTF8.data.toList))

theorem Offers.isNamed {surroundings : Surroundings} {options : Options} {text : String}
    (h : Offers surroundings options text) : options.expression? ≠ none ∨ options.path? ≠ none := by
  cases h with
  | expression h => exact Or.inl (h ▸ Option.some_ne_none _)
  | input _ hpath _ => exact Or.inr (hpath ▸ Option.some_ne_none _)
  | file _ hpath _ _ => exact Or.inr (hpath ▸ Option.some_ne_none _)

/-- Without carriage returns the text is read as it is. -/
theorem Offers.readProgram_eq {surroundings : Surroundings} {options : Options} {text : String}
    (h : Offers surroundings options text) (hreturns : '\r' ∉ text.toList) :
    readProgram surroundings options = .ok (.ok text) := by
  unfold readProgram
  cases h with
  | expression h => rw [h]
  | input hexpression hpath h =>
    rw [hexpression, hpath]
    simp only [Option.getD_some, readPath, inputPath, BEq.rfl, if_true, h]
  | @file path hexpression hpath hne h =>
    have hbeq : (path == inputPath) = false := beq_false_of_ne hne
    rw [hexpression, hpath]
    simp only [Option.getD_some, readPath, hbeq, h, Text.ofUtf8_toUTF8,
      Text.unifyLineEnds_of_not_mem hreturns, String.ofList_toList]
    rfl

/-- The limit on nesting is that of the options, if they have one, or that of the settings. -/
def HasDepth (options : Options) (settings : Settings) (depth : Text.ShortInteger) : Prop :=
  options.maxDepth? = some (.value depth) ∨
    (options.maxDepth? = none ∧ settings.maxDepth = depth)

theorem HasDepth.chooseDepth_eq {options : Options} {settings : Settings}
    {depth : Text.ShortInteger} (h : HasDepth options settings depth) :
    chooseDepth options settings = .ok depth := by
  unfold chooseDepth
  rcases h with h | ⟨h, rfl⟩ <;> rw [h]

/-! ## The command -/

section
variable {surroundings : Surroundings} {arguments : List String} {options : Options}

/-- The limits that a program runs under: nesting as chosen, precision as in the settings, and
otherwise those of the host. -/
def limitsFor (surroundings : Surroundings) (depth : Text.ShortInteger) : Limits :=
  { surroundings.limits with
    maxDepth := depth
    precision := (Settings.load surroundings.processVariable?).1.precision }

theorem run_of_offers {depth : Text.ShortInteger} {threshold : Severity} {text : String}
    (haccepted : readArguments surroundings.dialect arguments = .ok (.run options))
    (hdepth : HasDepth options (Settings.load surroundings.processVariable?).1 depth)
    (hpositive : 1 ≤ depth.value)
    (hlevel :
      chooseThreshold options (Settings.load surroundings.processVariable?).1 = .ok threshold)
    (htext : Offers surroundings options text) (hreturns : '\r' ∉ text.toList) :
    run surroundings arguments = .ok (runText surroundings (limitsFor surroundings depth)
      threshold options.json text) := by
  unfold run
  rw [haccepted]
  simp only [runOptions, hdepth.chooseDepth_eq, bind, Except.bind, hlevel,
    htext.readProgram_eq hreturns, if_neg (Int.not_lt.mpr hpositive), limitsFor]

/-- The command ends with a code other than zero by refusing the arguments, by refusing the source of
the program, or by reporting a run. -/
theorem output_of_run {report : Report} (h : run surroundings arguments = .ok report)
    (hcode : report.exitCode ≠ 0) : report.output = "" := by
  unfold run at h
  split at h
  · cases h
    rfl
  · cases h
    exact absurd rfl hcode
  · next options _ =>
    simp only [runOptions, bind, Except.bind] at h
    split at h
    · cases h
    · split at h
      · cases h
        rfl
      · split at h
        · cases h
        · split at h
          · cases h
          · split at h
            · cases h
              rfl
            · cases h
              rw [(reports_runText _ _ _ _ _).output_eq, if_neg hcode]

/-- The command ends without a report only where an option is given nothing, or the level for log
records cannot be read. -/
theorem exists_of_breakdown {breakdown : Breakdown}
    (h : run surroundings arguments = .error breakdown) :
    ∃ options, Asks surroundings.dialect {} arguments options ∧
      (options.maxDepth? = some .nothing ∨ options.expression? = some .nothing ∨
        ∃ fault, chooseThreshold options (Settings.load surroundings.processVariable?).1 =
          .error fault) := by
  unfold run at h
  split at h
  · cases h
  · cases h
  · next options haccepted =>
    refine ⟨options, (readArguments_eq_run_iff.mp haccepted).1, ?_⟩
    -- the depth, the level and the program are chosen in this order
    simp only [runOptions, bind, Except.bind] at h
    split at h
    · next fault hdepth =>
      unfold chooseDepth at hdepth
      split at hdepth
      · cases hdepth
      · next hnothing => exact Or.inl hnothing
      · cases hdepth
    · split at h
      · cases h
      · split at h
        · next fault hlevel => exact Or.inr (Or.inr ⟨fault, hlevel⟩)
        · split at h
          · next fault hread =>
            unfold readProgram at hread
            split at hread
            · cases hread
            · next hnothing => exact Or.inr (Or.inl hnothing)
            · cases hread
          · split at h <;> cases h

end

/-- Arguments are accepted exactly if they ask for something and name a program text or a path. Then,
with a level for log records that can be read, and a program text without carriage returns, given by
an option, in a file or on standard input, the command makes a report. Its code is zero if and only if
the text runs without a fault, with the limit on nesting of the options or else of the settings and
the precision of the settings, and the stack is not too deep for JSON where JSON is asked for; and
then its output is the values of the stack, bottom first, one a line or as an array. If the text runs
into a fault, the code is one and the last line of the errors tells the fault. Whatever the arguments
and the surroundings are, nothing is output with another code than zero; and there is no report only
where an option is given nothing, or the level cannot be read. -/
theorem run_agrees (surroundings : Surroundings) (arguments : List String) :
    (∀ options, readArguments surroundings.dialect arguments = .ok (.run options) ↔
      Asks surroundings.dialect {} arguments options ∧
        (options.expression? ≠ none ∨ options.path? ≠ none)) ∧
    (∀ options depth threshold text,
      let settings := (Settings.load surroundings.processVariable?).1
      let outcome := runProgram (limitsFor surroundings depth) text
      let values := outcome.machine.values
      Asks surroundings.dialect {} arguments options → HasDepth options settings depth →
      1 ≤ depth.value → chooseThreshold options settings = .ok threshold →
      Offers surroundings options text → '\r' ∉ text.toList →
      ∃ report, run surroundings arguments = .ok report ∧
        (report.exitCode = 0 ↔ outcome.fault? = none ∧
          (options.json = true → ∀ v ∈ values, nestsWithin surroundings.jsonDepth v = true)) ∧
        (report.exitCode = 0 → report.output =
          if options.json then (Value.block values).toJson ++ "\n"
          else String.join (values.map fun v => v.render ++ "\n")) ∧
        ∀ fault, outcome.fault? = some fault →
          report.exitCode = 1 ∧ '\n' ∉ fault.message.toList ∧ ∃ before, IsLines before ∧
            report.errors = before ++ "Error: " ++ fault.message ++ "\n") ∧
    (∀ report, run surroundings arguments = .ok report → report.exitCode ≠ 0 →
      report.output = "") ∧
    ∀ breakdown, run surroundings arguments = .error breakdown →
      ∃ options, Asks surroundings.dialect {} arguments options ∧
        (options.maxDepth? = some .nothing ∨ options.expression? = some .nothing ∨
          ∃ fault, chooseThreshold options (Settings.load surroundings.processVariable?).1 =
            .error fault) := by
  refine ⟨fun options => readArguments_eq_run_iff, ?_, fun report h hcode => output_of_run h hcode,
    fun breakdown h => exists_of_breakdown h⟩
  intro options depth threshold text settings outcome values hasks hdepth hpositive hlevel htext
    hreturns
  have haccepted := readArguments_eq_run_iff.mpr ⟨hasks, htext.isNamed⟩
  have hreports :=
    reports_runText surroundings (limitsFor surroundings depth) threshold options.json text
  refine ⟨_, run_of_offers haccepted hdepth hpositive hlevel htext hreturns,
    hreports.exitCode_eq_zero_iff, fun hcode => ?_, fun fault hfault => ?_⟩
  · rw [hreports.output_eq, if_pos hcode]
    rfl
  · obtain ⟨hcode, herrors⟩ := hreports.exitCode_errors_of_fault hfault
    exact ⟨hcode, Fault.isLine_of_runProgram hfault, herrors⟩

/-- Surroundings with a single file, in which only errors are logged. -/
def Surroundings.ofFile (name text : String) : Surroundings where
  dialect := .newer
  processVariable? name := if name == "IFEXPR_LOG_LEVEL" then some "error" else none
  input := .ok ""
  files path := if path == name then some (.file text.toUTF8.data.toList) else none
  jsonDepth := 490
  particulars :=
    ⟨fun _ => "2024-02-29 12:00:00,000", fun _ _ => none, fun _ _ => none, fun _ _ => none,
      1000000000, fun _ => ""⟩
  trace := Fault.message

/-- A program in a file that adds two numbers, under a limit on nesting of its own, leaves their sum as
JSON. -/
theorem run_agrees_of_sum :
    let surroundings := Surroundings.ofFile "sum.ifx" "sum \x7b1 2\x7d"
    let settings := (Settings.load surroundings.processVariable?).1
    let arguments := ["--max-depth=7", "sum.ifx", "--json"]
    let options : Options :=
      { path? := some "sum.ifx", json := true, maxDepth? := some (.value (.ofNat 7)) }
    let outcome := runProgram (limitsFor surroundings (.ofNat 7)) "sum \x7b1 2\x7d"
    Asks surroundings.dialect {} arguments options ∧ HasDepth options settings (.ofNat 7) ∧
      chooseThreshold options settings = .ok 40 ∧
      Offers surroundings options "sum \x7b1 2\x7d" ∧
      (outcome.fault? = none ∧ outcome.machine.values = [.number (.ofNat 3)]) ∧
      ∃ report, run surroundings arguments = .ok report ∧ report.exitCode = 0 ∧
        report.output = "[\"3\"]\n" := by
  intro surroundings settings arguments options outcome
  have hspells : Spells .maxDepth (some ⟨false, true, ['7']⟩) "--max-depth=7".toList :=
    .longEquals (by decide : 3 ≤ "--max-depth".toList.length) (List.prefix_refl _)
  have hasks : Asks .newer {} arguments options := by
    refine .attached hspells (.maxDepth ?_) (.path (Or.inl ?_) rfl rfl (.json ?_ .nil))
    · rfl
    · intro second rest h
      cases h
    · exact .long (by decide) (List.prefix_refl _)
  have hdepth : HasDepth options settings (.ofNat 7) := Or.inl rfl
  have hlevel : chooseThreshold options settings = .ok 40 := by
    simp only [options, settings, surroundings]
    rfl
  have hoffers : Offers surroundings options "sum \x7b1 2\x7d" :=
    .file rfl rfl (by decide) rfl
  have hread : Program.ofSource "sum \x7b1 2\x7d" =
      .ok ⟨[.block [.number (.ofNat 2), .number (.ofNat 1)], .symbol "sum"], [], none⟩ :=
    Program.ofSource_of_text (by decide) (by decide)
  have hok : outcome.fault? = none ∧ outcome.machine.values = [.number (.ofNat 3)] := by
    simp only [outcome]
    rw [runProgram, Machine.evaluate, hread]
    exact ⟨rfl, rfl⟩
  obtain ⟨-, hreports, -⟩ := run_agrees surroundings arguments
  obtain ⟨report, hrun, hcode, houtput, -⟩ := hreports options (.ofNat 7) 40 _ hasks hdepth
    (by decide) hlevel hoffers (by decide)
  have hzero := hcode.mpr ⟨hok.1, by rw [hok.2]; decide⟩
  have hwritten := houtput hzero
  rw [hok.2] at hwritten
  exact ⟨hasks, hdepth, hlevel, hoffers, hok, report, hrun, hzero,
    hwritten.trans (by decide +kernel)⟩

end QuoteStack.CommandLine
