import QuoteStack.Proofs.CommandLine.Spelling

/-!
The arguments that are accepted, and what they ask for. An option with a value has it attached, or is
followed by it; the first other value is the path to the program, and a program text is not given
beside it. The main statement is `readArguments_eq_run_iff`: arguments are accepted exactly if they
follow these rules, and then they are read as what they ask for.
-/

namespace QuoteStack.CommandLine

/-! ## What arguments ask for -/

/-- An option that is given something changes what is asked for. A program text is not asked for
beside a path. -/
inductive Takes : Flag → Given String → Options → Options → Prop where
  | expression {given : Given String} {options : Options} (h : options.path? = none) :
    Takes .expression given options { options with expression? := some given }
  | maxDepth {text : String} {depth : Text.ShortInteger} {options : Options}
    (h : Text.readNumeral text.toList = .ok depth) :
    Takes .maxDepth (.value text) options { options with maxDepth? := some (.value depth) }
  | noDepth {options : Options} :
    Takes .maxDepth .nothing options { options with maxDepth? := some .nothing }
  | logLevel {text : String} {options : Options} :
    Takes .logLevel (.value text) options { options with logLevel? := some text }
  | noLevel {options : Options} :
    Takes .logLevel .nothing options { options with logLevel? := none }

/-- Arguments turn what is asked for before them into what is asked for in the end. A path is not
asked for beside a program text; a separator has the path directly before or behind it, or none of
the arguments is a path. -/
inductive Asks (dialect : Dialect) : Options → List String → Options → Prop where
  | nil {options : Options} : Asks dialect options [] options
  | json {name : String} {rest : List String} {options final : Options}
    (hname : Flag.json.IsName name.toList)
    (more : Asks dialect { options with json := true } rest final) :
    Asks dialect options (name :: rest) final
  | next {flag : Flag} {name value : String} {rest : List String} {options options' final : Options}
    (hname : flag.IsName name.toList) (hvalue : IsPlain value.toList)
    (htakes : Takes flag (.value value) options options')
    (more : Asks dialect options' rest final) : Asks dialect options (name :: value :: rest) final
  | attached {flag : Flag} {attached : Attached} {text : String} {rest : List String}
    {options options' final : Options} (hspells : Spells flag (some attached) text.toList)
    (htakes : Takes flag (attached.given dialect) options options')
    (more : Asks dialect options' rest final) : Asks dialect options (text :: rest) final
  | path {path : String} {rest : List String} {options final : Options}
    (hplain : IsPlain path.toList) (hpath : options.path? = none)
    (hexpression : options.expression? = none)
    (more : Asks dialect { options with path? := some path } rest final) :
    Asks dialect options (path :: rest) final
  | pathBefore {path : String} {options : Options} (hplain : IsPlain path.toList)
    (hpath : options.path? = none) (hexpression : options.expression? = none) :
    Asks dialect options [path, separator] { options with path? := some path }
  | pathBehind {path : String} {options : Options} (hpath : options.path? = none)
    (hexpression : options.expression? = none) :
    Asks dialect options [separator, path] { options with path? := some path }
  | separator {options : Options} (hpath : options.path? = none) :
    Asks dialect options [separator] options

/-! ## Reading -/

theorem classify_cons {text : String} (hne : text ≠ separator) (rest : List String) :
    classify (text :: rest) =
      match Argument.ofText text, classify rest with
      | .ok argument, .ok arguments => .ok (argument :: arguments)
      | .error fault, _ => .error fault
      | _, .error fault => .error fault := by
  rw [classify]
  exact if_neg (by rwa [beq_iff_eq])

theorem classify_separator (rest : List String) :
    classify (separator :: rest) = .ok [.separator rest] := by
  rw [classify, if_pos (beq_self_eq_true _)]

/-- The separator is none of the options and values. -/
theorem ne_separator_of_ofText {text : String} {form : Argument}
    (h : Argument.ofText text = .ok form) : text ≠ separator := by
  rintro rfl
  have herror : Argument.ofText separator = .error (.ambiguous separator Flag.all) := rfl
  rw [herror] at h
  cases h

theorem classify_cons_eq_ok {text : String} {rest : List String} {form : Argument}
    {forms : List Argument} (hform : Argument.ofText text = .ok form)
    (hrest : classify rest = .ok forms) : classify (text :: rest) = .ok (form :: forms) := by
  rw [classify_cons (ne_separator_of_ofText hform), hform, hrest]

/-- The first form of arguments is that of the first argument, or of the separator. -/
theorem of_classify_cons {arguments : List String} {form : Argument} {forms : List Argument}
    (h : classify arguments = .ok (form :: forms)) :
    (∃ text rest, arguments = text :: rest ∧ Argument.ofText text = .ok form ∧
      classify rest = .ok forms) ∨
    ∃ rest, arguments = separator :: rest ∧ form = .separator rest ∧ forms = [] := by
  cases arguments with
  | nil => cases h
  | cons text rest =>
    by_cases hseparator : text = separator
    · subst hseparator
      rw [classify_separator] at h
      cases h
      exact Or.inr ⟨rest, rfl, rfl, rfl⟩
    · rw [classify_cons hseparator] at h
      cases hform : Argument.ofText text with
      | error fault =>
        rw [hform] at h
        cases h
      | ok form' =>
        cases hrest : classify rest with
        | error fault =>
          rw [hform, hrest] at h
          cases h
        | ok forms' =>
          rw [hform, hrest] at h
          cases h
          exact Or.inl ⟨text, rest, rfl, hform, hrest⟩

theorem eq_nil_of_classify {arguments : List String} (h : classify arguments = .ok []) :
    arguments = [] := by
  cases arguments with
  | nil => rfl
  | cons text rest =>
    by_cases hseparator : text = separator
    · subst hseparator
      rw [classify_separator] at h
      cases h
    · rw [classify_cons hseparator] at h
      split at h <;> cases h

theorem takePath_eq_ok {progress progress' : Progress} {path : String}
    (h : progress.takePath path = .ok progress') :
    progress.options.expression? = none ∧
      progress' = { progress with options := { progress.options with path? := some path } } := by
  unfold Progress.takePath at h
  split at h
  · cases h
  · next hnone =>
    cases h
    rw [Bool.not_eq_true, Option.isSome_eq_false_iff, Option.isNone_iff_eq_none] at hnone
    exact ⟨hnone, rfl⟩

theorem takePath_eq {progress : Progress} {path : String}
    (h : progress.options.expression? = none) :
    progress.takePath path =
      .ok { progress with options := { progress.options with path? := some path } } := by
  unfold Progress.takePath
  rw [h]
  rfl

theorem takeGiven_eq_ok {progress progress' : Progress} {flag : Flag} {given : Given String}
    (hvalue : flag.takesValue = true) (h : progress.takeGiven flag given = .ok progress') :
    ∃ options, Takes flag given progress.options options ∧
      progress' = { progress with options } := by
  cases flag with
  | help => cases hvalue
  | json => cases hvalue
  | expression =>
    unfold Progress.takeGiven at h
    dsimp only at h
    split at h
    · cases h
    · next hnone =>
      cases h
      rw [Bool.not_eq_true, Option.isSome_eq_false_iff, Option.isNone_iff_eq_none] at hnone
      exact ⟨_, .expression hnone, rfl⟩
  | maxDepth =>
    cases given with
    | nothing =>
      cases h
      exact ⟨_, .noDepth, rfl⟩
    | value text =>
      unfold Progress.takeGiven at h
      dsimp only at h
      split at h
      · next depth hread =>
        cases h
        exact ⟨_, .maxDepth hread, rfl⟩
      · cases h
  | logLevel =>
    cases given with
    | nothing =>
      cases h
      exact ⟨_, .noLevel, rfl⟩
    | value text =>
      cases h
      exact ⟨_, .logLevel, rfl⟩

theorem Takes.takesValue {flag : Flag} {given : Given String} {options options' : Options}
    (h : Takes flag given options options') : flag.takesValue = true := by
  cases h <;> rfl

theorem Takes.takeGiven_eq {flag : Flag} {given : Given String} {progress : Progress}
    {options : Options} (h : Takes flag given progress.options options) :
    progress.takeGiven flag given = .ok { progress with options } := by
  cases h with
  | expression hpath => simp only [Progress.takeGiven, hpath, Option.isSome_none,
      Bool.false_eq_true, if_false]
  | maxDepth hread => simp only [Progress.takeGiven, hread]
  | noDepth => rfl
  | logLevel => rfl
  | noLevel => rfl

/-- An option that has no value and does not ask for help is that for JSON, with nothing attached. -/
theorem eq_json_of_checked {dialect : Dialect} {nextIsValue : Bool} {flag : Flag}
    {attached? : Option Attached} {text : List Char} {progress : Progress}
    (hspells : Spells flag attached? text) (hvalue : ¬ flag.takesValue = true)
    (hchecked : (match attached? with
      | some attached => checkAttached dialect nextIsValue flag attached
      | none => .ok ()) = .ok ())
    (hhelp : ¬ (progress.takeFlag flag).help = true) : flag = .json ∧ Flag.json.IsName text := by
  cases flag with
  | help => exact absurd rfl hhelp
  | expression => exact absurd rfl hvalue
  | maxDepth => exact absurd rfl hvalue
  | logLevel => exact absurd rfl hvalue
  | json =>
    cases hspells with
    | bare hname => exact ⟨rfl, hname⟩
    | letterEquals hletter => cases hletter
    | longEquals _ _ => cases hchecked
    | behindLetter hletter _ => cases hletter

/-- What is read from arguments is what they ask for. -/
theorem asks_of_readFrom {dialect : Dialect} {progress progress' : Progress}
    {forms : List Argument} {arguments : List String} (hclassify : classify arguments = .ok forms)
    (h : readFrom dialect progress forms = .ok progress') (hhelp : progress'.help = false)
    (hextras : progress'.extras = []) :
    progress.extras = [] ∧ Asks dialect progress.options arguments progress'.options := by
  fun_induction readFrom dialect progress forms generalizing arguments with
  | case1 progress =>
    cases h
    obtain rfl := eq_nil_of_classify hclassify
    exact ⟨hextras, .nil⟩
  | case2 progress text more hpath ih =>
    obtain ⟨text', rest, rfl, -, hrest⟩ | ⟨rest, rfl, hform, -⟩ := of_classify_cons hclassify
    · obtain ⟨hnil, -⟩ := ih hrest h
      exact absurd hnil (List.append_ne_nil_of_right_ne_nil _ (List.cons_ne_nil _ _))
    · cases hform
  | case3 => cases h
  | case4 progress text hpath progress'' rest more htake =>
    cases h
    obtain ⟨hexpression, rfl⟩ := takePath_eq_ok htake
    obtain ⟨hnil, rfl⟩ := List.append_eq_nil_iff.mp hextras
    rw [Bool.not_eq_true, Option.isSome_eq_false_iff, Option.isNone_iff_eq_none] at hpath
    obtain ⟨path, rest, rfl, hform, hrest⟩ | ⟨rest, rfl, hform, -⟩ := of_classify_cons hclassify
    · obtain ⟨rfl, hplain⟩ := ofText_eq_value_iff.mp hform
      obtain ⟨text', rest', rfl, hform', -⟩ | ⟨rest', rfl, hform', rfl⟩ := of_classify_cons hrest
      · exact absurd hform' (ofText_ne_separator text' [])
      · cases hform'
        exact ⟨hnil, .pathBefore hplain hpath hexpression⟩
    · cases hform
  | case5 progress text hpath progress'' more hmore htake ih =>
    obtain ⟨hexpression, rfl⟩ := takePath_eq_ok htake
    rw [Bool.not_eq_true, Option.isSome_eq_false_iff, Option.isNone_iff_eq_none] at hpath
    obtain ⟨path, rest, rfl, hform, hrest⟩ | ⟨rest, rfl, hform, -⟩ := of_classify_cons hclassify
    · obtain ⟨rfl, hplain⟩ := ofText_eq_value_iff.mp hform
      obtain ⟨hnil, hasks⟩ := ih hrest h
      exact ⟨hnil, .path hplain hpath hexpression hasks⟩
    · cases hform
  | case6 progress rest more hpath =>
    cases h
    exact absurd hextras (List.append_ne_nil_of_right_ne_nil _ (List.cons_ne_nil _ _))
  | case7 progress more hpath =>
    cases h
    rw [Bool.not_eq_true, Option.isSome_eq_false_iff, Option.isNone_iff_eq_none] at hpath
    obtain ⟨text, rest, rfl, hform, -⟩ | ⟨rest, rfl, hform, -⟩ := of_classify_cons hclassify
    · exact absurd hform (ofText_ne_separator text [])
    · cases hform
      exact ⟨hextras, .separator hpath⟩
  | case8 progress more hpath path others =>
    rw [Bool.not_eq_true, Option.isSome_eq_false_iff, Option.isNone_iff_eq_none] at hpath
    cases htake : progress.takePath path with
    | error fault =>
      rw [htake] at h
      cases h
    | ok progress'' =>
      rw [htake] at h
      cases h
      obtain ⟨hexpression, rfl⟩ := takePath_eq_ok htake
      obtain ⟨hnil, rfl⟩ := List.append_eq_nil_iff.mp hextras
      obtain ⟨text, rest, rfl, hform, -⟩ | ⟨rest, rfl, hform, -⟩ := of_classify_cons hclassify
      · exact absurd hform (ofText_ne_separator text [path])
      · cases hform
        exact ⟨hnil, .pathBehind hpath hexpression⟩
  | case9 progress text more ih =>
    obtain ⟨text', rest, rfl, -, hrest⟩ | ⟨rest, rfl, hform, -⟩ := of_classify_cons hclassify
    · obtain ⟨hnil, -⟩ := ih hrest h
      exact absurd hnil (List.append_ne_nil_of_right_ne_nil _ (List.cons_ne_nil _ _))
    · cases hform
  | case10 progress flag hvalue attached more progress'' htake ih =>
    obtain ⟨options, htakes, rfl⟩ := takeGiven_eq_ok hvalue htake
    obtain ⟨text, rest, rfl, hform, hrest⟩ | ⟨rest, rfl, hform, -⟩ := of_classify_cons hclassify
    · obtain ⟨hnil, hasks⟩ := ih hrest h
      exact ⟨hnil, .attached (ofText_eq_flag_iff.mp hform) htakes hasks⟩
    · cases hform
  | case11 => cases h
  | case12 progress flag hvalue value more progress'' htake ih =>
    obtain ⟨options, htakes, rfl⟩ := takeGiven_eq_ok hvalue htake
    obtain ⟨name, rest, rfl, hform, hrest⟩ | ⟨rest, rfl, hform, -⟩ := of_classify_cons hclassify
    · obtain ⟨value', rest', rfl, hform', hrest'⟩ | ⟨rest', rfl, hform', -⟩ := of_classify_cons hrest
      · obtain ⟨rfl, hplain⟩ := ofText_eq_value_iff.mp hform'
        obtain ⟨hnil, hasks⟩ := ih hrest' h
        cases ofText_eq_flag_iff.mp hform with
        | bare hname => exact ⟨hnil, .next hname hplain htakes hasks⟩
      · cases hform'
    · cases hform
  | case13 => cases h
  | case14 => cases h
  | case15 => cases h
  | case16 progress flag attached? more hvalue nextIsValue checked hchecked progress'' =>
    rename_i hhelp'
    rw [← Except.ok.inj h] at hhelp
    exact absurd (hhelp.symm.trans hhelp') Bool.false_ne_true
  | case17 progress flag attached? more hvalue nextIsValue checked hchecked progress'' hhelp' =>
    rename_i ih
    obtain ⟨name, rest, rfl, hform, hrest⟩ | ⟨rest, rfl, hform, -⟩ := of_classify_cons hclassify
    · obtain ⟨rfl, hname⟩ :=
        eq_json_of_checked (ofText_eq_flag_iff.mp hform) hvalue hchecked hhelp'
      obtain ⟨hnil, hasks⟩ := ih hrest h
      exact ⟨hnil, .json hname hasks⟩
    · cases hform

/-- What arguments ask for is read from them. -/
theorem Asks.readFrom_eq {dialect : Dialect} {options final : Options} {arguments : List String}
    (h : Asks dialect options arguments final) :
    ∃ forms, classify arguments = .ok forms ∧
      (options.path? ≠ none → ∀ rest more, forms ≠ .separator rest :: more) ∧
      ∀ progress : Progress, progress.options = options → progress.help = false →
        readFrom dialect progress forms = .ok { progress with options := final } := by
  induction h with
  | nil => exact ⟨[], rfl, fun _ => nofun, fun progress hoptions _ => by rw [readFrom, ← hoptions]⟩
  | json hname _ ih =>
    obtain ⟨forms, hclassify, -, hread⟩ := ih
    refine ⟨_, classify_cons_eq_ok (ofText_of_spells (.bare hname)) hclassify, fun _ => nofun, ?_⟩
    intro progress hoptions hhelp
    have hmore := hread (progress.takeFlag .json) (by rw [← hoptions]; rfl) hhelp
    have hnohelp : (progress.takeFlag .json).help = false := hhelp
    unfold readFrom
    rw [if_neg (by decide : ¬ Flag.json.takesValue = true)]
    show (if (progress.takeFlag .json).help = true then _
      else readFrom dialect (progress.takeFlag .json) forms) = _
    rw [if_neg (hnohelp ▸ Bool.false_ne_true), hmore]
    rfl
  | next hname hvalue htakes _ ih =>
    obtain ⟨forms, hclassify, -, hread⟩ := ih
    have hvalue' := ofText_eq_value_iff.mpr ⟨rfl, hvalue⟩
    refine ⟨_, classify_cons_eq_ok (ofText_of_spells (.bare hname))
      (classify_cons_eq_ok hvalue' hclassify), fun _ => nofun, ?_⟩
    rintro progress rfl hhelp
    unfold readFrom
    rw [if_pos htakes.takesValue]
    dsimp only
    rw [htakes.takeGiven_eq]
    exact hread _ rfl hhelp
  | attached hspells htakes _ ih =>
    obtain ⟨forms, hclassify, -, hread⟩ := ih
    refine ⟨_, classify_cons_eq_ok (ofText_of_spells hspells) hclassify, fun _ => nofun, ?_⟩
    rintro progress rfl hhelp
    unfold readFrom
    rw [if_pos htakes.takesValue]
    dsimp only
    rw [htakes.takeGiven_eq]
    exact hread _ rfl hhelp
  | path hplain hpath hexpression _ ih =>
    obtain ⟨forms, hclassify, hno, hread⟩ := ih
    have hform := ofText_eq_value_iff.mpr ⟨rfl, hplain⟩
    refine ⟨_, classify_cons_eq_ok hform hclassify, fun _ => nofun, ?_⟩
    rintro progress rfl hhelp
    unfold readFrom
    rw [hpath, if_neg (by decide : ¬ (none : Option String).isSome = true),
      takePath_eq hexpression]
    split
    · next heq => cases heq
    · next heq => exact absurd rfl (hno (Option.some_ne_none _) _ _)
    · next heq _ =>
      cases heq
      exact hread _ rfl hhelp
  | pathBefore hplain hpath hexpression =>
    have hform := ofText_eq_value_iff.mpr ⟨rfl, hplain⟩
    refine ⟨_, classify_cons_eq_ok hform (classify_separator []), fun _ => nofun, ?_⟩
    rintro progress rfl -
    unfold readFrom
    rw [hpath, if_neg (by decide : ¬ (none : Option String).isSome = true),
      takePath_eq hexpression]
    simp only [Progress.addExtras, List.append_nil]
  | pathBehind hpath hexpression =>
    refine ⟨_, classify_separator _, fun hsome => absurd hpath hsome, ?_⟩
    rintro progress rfl -
    unfold readFrom
    rw [hpath, if_neg (by decide : ¬ (none : Option String).isSome = true)]
    dsimp only
    rw [takePath_eq hexpression]
    simp only [Except.map, Progress.addExtras, List.append_nil]
  | separator hpath =>
    refine ⟨_, classify_separator _, fun hsome => absurd hpath hsome, ?_⟩
    rintro progress rfl -
    unfold readFrom
    rw [hpath, if_neg (by decide : ¬ (none : Option String).isSome = true)]

/-- Arguments are accepted exactly if they name a program text or a path and follow the rules, and
then they are read as what they ask for. -/
theorem readArguments_eq_run_iff {dialect : Dialect} {arguments : List String} {options : Options} :
    readArguments dialect arguments = .ok (.run options) ↔
      Asks dialect {} arguments options ∧ (options.expression? ≠ none ∨ options.path? ≠ none) := by
  unfold readArguments
  constructor
  · intro h
    split at h
    · cases h
    · next forms hclassify =>
      split at h
      · cases h
      · next progress hread =>
        dsimp only at h
        split at h
        · cases h
        · next hhelp =>
          split at h
          · cases h
          · next hprogram =>
            split at h
            · cases h
            · next hextras =>
              cases h
              rw [Bool.not_eq_true, Bool.not_eq_false', List.isEmpty_iff] at hextras
              rw [Bool.and_eq_true, Option.isNone_iff_eq_none, Option.isNone_iff_eq_none,
                not_and_or] at hprogram
              rw [Bool.not_eq_true] at hhelp
              exact ⟨(asks_of_readFrom hclassify hread hhelp hextras).2, hprogram⟩
  · rintro ⟨hasks, hprogram⟩
    obtain ⟨forms, hclassify, -, hread⟩ := hasks.readFrom_eq
    rw [hclassify]
    dsimp only
    rw [hread {} rfl rfl]
    have hnamed : ¬ (options.expression?.isNone && options.path?.isNone) = true := by
      rw [Bool.and_eq_true, Option.isNone_iff_eq_none, Option.isNone_iff_eq_none, not_and_or]
      exact hprogram
    dsimp only
    rw [if_neg Bool.false_ne_true, if_neg hnamed]
    rfl

end QuoteStack.CommandLine
