import Mathlib.Data.List.Nodup
import Mathlib.Data.List.TakeDrop
import Mathlib.Data.List.TakeWhile
import QuoteStack.CommandLine.Arguments

/-!
How options are written. An option is told by its letter, or by so much of its long form that no other
option starts with it, and a text may be attached to it. An argument is read as an option exactly if it
spells one (`ofText_eq_flag_iff`), and as a value exactly if no option could be meant by it
(`ofText_eq_value_iff`).
-/

namespace QuoteStack.CommandLine

/-! ## How options are written -/

/-- The names of an option: its letter, and the beginnings of its long form that are long enough to
tell it from the others. -/
inductive Flag.IsName (flag : Flag) : List Char → Prop where
  | letter {letter : Char} (h : flag.short? = some letter) : IsName flag ['-', letter]
  | long {name : List Char} (hlength : 3 ≤ name.length) (h : name <+: flag.long.toList) :
    IsName flag name

/-- The ways to write an option, with what is attached to it: nothing, a text behind an equals sign,
or a text directly behind its letter. -/
inductive Spells : Flag → Option Attached → List Char → Prop where
  | bare {flag : Flag} {name : List Char} (h : flag.IsName name) : Spells flag none name
  | letterEquals {flag : Flag} {letter : Char} {text : List Char}
    (h : flag.short? = some letter) :
    Spells flag (some ⟨true, true, text⟩) ('-' :: letter :: '=' :: text)
  | longEquals {flag : Flag} {name text : List Char} (hlength : 3 ≤ name.length)
    (h : name <+: flag.long.toList) : Spells flag (some ⟨false, true, text⟩) (name ++ '=' :: text)
  | behindLetter {flag : Flag} {letter next : Char} {text : List Char}
    (h : flag.short? = some letter) (hnext : next ≠ '=') :
    Spells flag (some ⟨true, false, next :: text⟩) ('-' :: letter :: next :: text)

/-- A text that no option is meant by: it does not start with a minus, or it is the minus alone, or it
spells no option and is a negative number or has a space in it. -/
def IsPlain (text : List Char) : Prop :=
  (∀ second rest, text ≠ '-' :: second :: rest) ∨
    ((∀ flag attached?, ¬ Spells flag attached? text) ∧ ¬ ['-', '-', '='] <+: text ∧
      (isNegativeNumber text = true ∨ ' ' ∈ text))

namespace Flag

theorem ofLetter?_eq_some_iff {letter : Char} {flag : Flag} :
    ofLetter? letter = some flag ↔ flag.short? = some letter := by
  constructor
  · intro h
    have hfound := List.find?_some h
    exact beq_iff_eq.mp hfound
  · intro h
    cases flag <;> cases h <;> rfl

/-- The third character of a long form tells it from the others. -/
theorem eq_of_isPrefix_long {flag other : Flag} {name : List Char} (hlength : 3 ≤ name.length)
    (h : name <+: flag.long.toList) (h' : name <+: other.long.toList) : flag = other := by
  have hthird : flag.long.toList[2]? = other.long.toList[2]? := by
    obtain ⟨rest, hrest⟩ := h
    obtain ⟨rest', hrest'⟩ := h'
    rw [← hrest, ← hrest', List.getElem?_append_left hlength, List.getElem?_append_left hlength]
  revert hthird
  cases flag <;> cases other <;> decide

/-- A beginning of a long form starts with two minuses. -/
theorem exists_cons_of_isPrefix_long {flag : Flag} {name : List Char} (hlength : 3 ≤ name.length)
    (h : name <+: flag.long.toList) : ∃ third rest, name = '-' :: '-' :: third :: rest := by
  obtain ⟨rest, hrest⟩ := h
  match name, hlength with
  | first :: second :: third :: name, _ =>
    have hminus : flag.long.toList.take 2 = ['-', '-'] := by cases flag <;> rfl
    rw [← hrest, List.cons_append, List.cons_append, List.take_succ_cons, List.take_succ_cons,
      List.take_zero] at hminus
    obtain ⟨rfl, rfl⟩ : first = '-' ∧ second = '-' := by simpa using hminus
    exact ⟨third, name, rfl⟩

/-- Letters and long forms have no equals sign. -/
theorem IsName.equals_not_mem {flag : Flag} {name : List Char} (h : flag.IsName name) :
    '=' ∉ name := by
  cases h with
  | letter h => cases flag <;> cases h <;> decide
  | long _ h =>
    intro hmem
    have hlong := h.subset hmem
    revert hlong
    cases flag <;> decide

theorem ofText?_of_long {name : List Char} (hlength : 3 ≤ name.length) :
    ofText? name = all.find? fun flag => flag.long.toList == name := by
  unfold ofText?
  split
  · exact absurd hlength (Nat.not_le_of_lt (Nat.lt_succ_self 2))
  · rfl

theorem mem_startingWith_iff {flag : Flag} {text : List Char} :
    flag ∈ startingWith text ↔ text <+: flag.long.toList := by
  unfold startingWith
  rw [List.mem_filter, List.isPrefixOf_iff_prefix]
  exact and_iff_right (by cases flag <;> decide)

/-- A beginning of a long form stands for its option only, whether it is the whole form or not. -/
theorem ofText?_startingWith_of_isPrefix {flag : Flag} {name : List Char}
    (hlength : 3 ≤ name.length) (h : name <+: flag.long.toList) :
    (ofText? name = some flag ∨ ofText? name = none) ∧ startingWith name = [flag] := by
  refine ⟨?_, ?_⟩
  · rw [ofText?_of_long hlength]
    cases hfound : all.find? fun flag => flag.long.toList == name with
    | none => exact Or.inr rfl
    | some other =>
      have heq := List.find?_some hfound
      rw [beq_iff_eq] at heq
      have hother : name <+: other.long.toList := heq ▸ List.prefix_refl _
      exact Or.inl (congrArg some (eq_of_isPrefix_long hlength hother h))
  · have honly : ∀ other : Flag, name.isPrefixOf other.long.toList = decide (other = flag) := by
      intro other
      rw [Bool.eq_iff_iff, List.isPrefixOf_iff_prefix, decide_eq_true_eq]
      constructor
      · exact fun hother => eq_of_isPrefix_long hlength hother h
      · rintro rfl
        exact h
    unfold startingWith
    simp only [honly]
    cases flag <;> rfl

/-- A text that starts with two minuses and is the beginning of one long form only. -/
theorem isPrefix_of_startingWith {flag : Flag} {rest : List Char}
    (h : startingWith ('-' :: '-' :: rest) = [flag]) :
    3 ≤ ('-' :: '-' :: rest).length ∧ '-' :: '-' :: rest <+: flag.long.toList := by
  have hmem : flag ∈ startingWith ('-' :: '-' :: rest) := h ▸ List.mem_cons_self
  refine ⟨?_, mem_startingWith_iff.mp hmem⟩
  cases rest with
  | nil =>
    have hall : startingWith ['-', '-'] = all := rfl
    rw [hall] at h
    cases h
  | cons c rest =>
    simp only [List.length_cons]
    omega

/-- A text that spells an option in full is its letter or its long form. -/
theorem isName_of_ofText? {flag : Flag} {name : List Char} (h : ofText? name = some flag) :
    flag.IsName name := by
  unfold ofText? at h
  split at h
  · exact .letter (ofLetter?_eq_some_iff.mp h)
  · have heq := List.find?_some h
    rw [beq_iff_eq] at heq
    subst heq
    exact .long (by cases flag <;> decide) (List.prefix_refl _)

/-- A text with an equals sign spells no option in full. -/
theorem ofText?_of_equals_mem {text : List Char} (h : '=' ∈ text) : ofText? text = none := by
  cases hfull : ofText? text with
  | none => rfl
  | some flag => exact absurd h (isName_of_ofText? hfull).equals_not_mem

/-- A letter is no minus. -/
theorem bne_of_short? {flag : Flag} {letter : Char} (h : flag.short? = some letter) :
    (letter != '-') = true := by
  cases flag <;> cases h <;> decide

/-- More than a letter behind one minus spells no option in full. -/
theorem ofText?_of_bne {letter next : Char} {rest : List Char} (h : (letter != '-') = true) :
    ofText? ('-' :: letter :: next :: rest) = none := by
  cases hfull : ofText? ('-' :: letter :: next :: rest) with
  | none => rfl
  | some flag =>
    cases isName_of_ofText? hfull with
    | long hlength hlong =>
      obtain ⟨third, rest', heq⟩ := exists_cons_of_isPrefix_long hlength hlong
      obtain ⟨rfl, -⟩ := List.cons.inj (List.cons.inj heq).2
      exact absurd h (by decide)

end Flag

/-! ## The form of an argument -/

/-- Options start with a minus, and are longer. -/
theorem Spells.exists_cons {flag : Flag} {attached? : Option Attached} {text : List Char}
    (h : Spells flag attached? text) : ∃ second rest, text = '-' :: second :: rest := by
  cases h with
  | bare h =>
    cases h with
    | letter _ => exact ⟨_, _, rfl⟩
    | long hlength hlong =>
      obtain ⟨third, rest, rfl⟩ := Flag.exists_cons_of_isPrefix_long hlength hlong
      exact ⟨_, _, rfl⟩
  | letterEquals _ => exact ⟨_, _, rfl⟩
  | longEquals hlength hlong =>
    obtain ⟨third, rest, rfl⟩ := Flag.exists_cons_of_isPrefix_long hlength hlong
    exact ⟨_, _, rfl⟩
  | behindLetter _ _ => exact ⟨_, _, rfl⟩

theorem splitAtEquals?_append {before : List Char} (h : '=' ∉ before) (after : List Char) :
    splitAtEquals? (before ++ '=' :: after) = some (before, after) := by
  have hall : ∀ c ∈ before, (c != '=') = true := by
    intro c hc
    rw [bne_iff_ne]
    rintro rfl
    exact h hc
  unfold splitAtEquals?
  rw [List.span_eq_takeWhile_dropWhile, List.takeWhile_append_of_pos hall,
    List.dropWhile_append_of_pos hall]
  simp

theorem splitAtEquals?_eq_none {text : List Char} (h : '=' ∉ text) :
    splitAtEquals? text = none := by
  have hall : ∀ c ∈ text, (c != '=') = true := by
    intro c hc
    rw [bne_iff_ne]
    rintro rfl
    exact h hc
  unfold splitAtEquals?
  rw [List.span_eq_takeWhile_dropWhile, List.dropWhile_eq_nil_iff.mpr hall]

theorem eq_append_of_splitAtEquals? {text before after : List Char}
    (h : splitAtEquals? text = some (before, after)) : text = before ++ '=' :: after := by
  by_cases hmem : '=' ∈ text
  · obtain ⟨before', after', rfl, hnot⟩ := List.eq_append_cons_of_mem hmem
    rw [splitAtEquals?_append hnot] at h
    cases h
    rfl
  · rw [splitAtEquals?_eq_none hmem] at h
    cases h

/-- A text that spells an option is read as the option. -/
theorem ofText_of_spells {text : String} {flag : Flag} {attached? : Option Attached}
    (h : Spells flag attached? text.toList) : Argument.ofText text = .ok (.flag flag attached?) := by
  unfold Argument.ofText
  generalize text.toList = chars at h
  dsimp only
  cases h with
  | bare hname =>
    cases hname with
    | @letter letter hletter =>
      have hfull : Flag.ofText? ['-', letter] = some flag := Flag.ofLetter?_eq_some_iff.mpr hletter
      simp only [hfull]
    | long hlength hlong =>
      obtain ⟨hfull, hstarting⟩ := Flag.ofText?_startingWith_of_isPrefix hlength hlong
      have hsplit := splitAtEquals?_eq_none (Flag.IsName.long hlength hlong).equals_not_mem
      obtain ⟨third, rest, rfl⟩ := Flag.exists_cons_of_isPrefix_long hlength hlong
      rcases hfull with hfull | hfull
      · simp only [hfull]
      · simp only [hfull, hsplit, hstarting, Option.bind_eq_bind, Option.bind_none, Option.map_none,
          Option.getD_none, BEq.rfl, if_true]
  | @letterEquals letter value hletter =>
    have hsplit : splitAtEquals? ('-' :: letter :: '=' :: value) = some (['-', letter], value) :=
      splitAtEquals?_append (Flag.IsName.letter hletter).equals_not_mem value
    have hname : Flag.ofText? ['-', letter] = some flag := Flag.ofLetter?_eq_some_iff.mpr hletter
    simp only [Flag.ofText?_of_bne (Flag.bne_of_short? hletter), hsplit, Option.bind_eq_bind,
      Option.bind_some, hname, Option.map_some, Flag.bne_of_short? hletter]
  | @longEquals name value hlength hlong =>
    have hnot := (Flag.IsName.long hlength hlong).equals_not_mem
    have hnone : Flag.ofText? (name ++ '=' :: value) = none :=
      Flag.ofText?_of_equals_mem (List.mem_append_right name List.mem_cons_self)
    have hsplit := splitAtEquals?_append hnot value
    obtain ⟨hfull, hstarting⟩ := Flag.ofText?_startingWith_of_isPrefix hlength hlong
    obtain ⟨third, rest, rfl⟩ := Flag.exists_cons_of_isPrefix_long hlength hlong
    simp only [List.cons_append] at hnone hsplit ⊢
    rcases hfull with hfull | hfull
    · simp only [hnone, hsplit, hfull, Option.bind_eq_bind, Option.bind_some, Option.map_some]
      rfl
    · simp only [hnone, hsplit, hfull, hstarting, Option.bind_eq_bind, Option.bind_some,
        Option.map_some, Option.map_none, Option.getD_some, BEq.rfl, if_true]
  | @behindLetter letter next value hletter hnext =>
    have hbne := Flag.bne_of_short? hletter
    have hnot (rest : List Char) (hrest : '=' ∉ rest) : '=' ∉ '-' :: letter :: next :: rest := by
      have hletter := (Flag.IsName.letter hletter).equals_not_mem
      simp only [List.mem_cons, not_or] at hletter ⊢
      exact ⟨hletter.1, hletter.2.1, hnext.symm, hrest⟩
    have hbefore (find : List Char × List Char → Option (Flag × List Char))
        (hfind : ∀ split, find split = (Flag.ofText? split.1).map (·, split.2)) :
        (splitAtEquals? ('-' :: letter :: next :: value) >>= find) = none := by
      by_cases hmem : '=' ∈ value
      · obtain ⟨before, after, rfl, hbefore⟩ := List.eq_append_cons_of_mem hmem
        have hsplit := splitAtEquals?_append (hnot before hbefore) after
        simp only [List.cons_append] at hsplit
        simp only [hsplit, Option.bind_eq_bind, Option.bind_some, hfind, Flag.ofText?_of_bne hbne,
          Option.map_none]
      · rw [splitAtEquals?_eq_none (hnot value hmem)]
        rfl
    have hbeq : (letter == '-') = false := by simpa using hbne
    simp only [Flag.ofText?_of_bne hbne]
    rw [hbefore _ ?_]
    · simp only [hbeq, Flag.ofLetter?_eq_some_iff.mpr hletter]
      rfl
    · exact fun _ => rfl

/-- Two minuses that more than one long form starts with are no more than two. -/
theorem Flag.eq_nil_of_startingWith {flag other : Flag} {flags : List Flag} {rest : List Char}
    (h : startingWith ('-' :: '-' :: rest) = flag :: other :: flags) : rest = [] := by
  cases rest with
  | nil => rfl
  | cons third rest =>
    have hnodup : (startingWith ('-' :: '-' :: third :: rest)).Nodup :=
      List.Nodup.filter _ (by decide)
    rw [h] at hnodup
    have hmem (f : Flag) (hf : f ∈ flag :: other :: flags) :
        '-' :: '-' :: third :: rest <+: f.long.toList := mem_startingWith_iff.mp (h ▸ hf)
    have hlength : 3 ≤ ('-' :: '-' :: third :: rest).length := by
      simp only [List.length_cons]
      omega
    have heq := eq_of_isPrefix_long hlength (hmem flag List.mem_cons_self)
      (hmem other (List.mem_cons_of_mem _ List.mem_cons_self))
    exact absurd (heq ▸ List.mem_cons_self) (List.nodup_cons.mp hnodup).1

/-- What an argument can be read as: an option that it spells, a value that does not start as options
do, or else an ambiguous beginning, or a text that spells no option. -/
theorem ofText_cases (text : String) :
    (∃ flag attached?, Spells flag attached? text.toList ∧
      Argument.ofText text = .ok (.flag flag attached?)) ∨
    ((∀ second rest, text.toList ≠ '-' :: second :: rest) ∧
      Argument.ofText text = .ok (.value text)) ∨
    ((text.toList = ['-', '-'] ∨ ['-', '-', '='] <+: text.toList) ∧
      ∃ fault, Argument.ofText text = .error fault) ∨
    Argument.ofText text = .ok (if isNegativeNumber text.toList || text.toList.contains ' '
      then .value text else .unknown text) := by
  unfold Argument.ofText
  generalize text.toList = chars
  dsimp only
  split
  · next second rest =>
    cases hfull : Flag.ofText? ('-' :: second :: rest) with
    | some flag => exact Or.inl ⟨flag, none, .bare (Flag.isName_of_ofText? hfull), rfl⟩
    | none =>
      dsimp only
      split
      · next flag after hfound =>
        -- a name and an equals sign
        obtain ⟨⟨before, after'⟩, hat, hfound⟩ := Option.bind_eq_some_iff.mp hfound
        obtain ⟨flag', hname, heq⟩ := Option.map_eq_some_iff.mp hfound
        obtain ⟨rfl, rfl⟩ := Prod.mk.inj heq
        have htext := eq_append_of_splitAtEquals? hat
        refine Or.inl ⟨flag', _, ?_, rfl⟩
        cases Flag.isName_of_ofText? hname with
        | letter hletter =>
          obtain ⟨-, rfl, rfl⟩ : True ∧ _ = _ ∧ _ = _ := by simpa using htext
          rw [Flag.bne_of_short? hletter]
          exact .letterEquals hletter
        | long hlength hlong =>
          obtain ⟨third, more, rfl⟩ := Flag.exists_cons_of_isPrefix_long hlength hlong
          obtain ⟨rfl, rfl⟩ : second = '-' ∧ rest = _ := by simpa using htext
          exact .longEquals hlength hlong
      · next hnone =>
        by_cases hsecond : (second == '-') = true
        · -- the beginning of a long form, or of none, or of several
          obtain rfl := beq_iff_eq.mp hsecond
          rw [if_pos hsecond]
          cases hat : splitAtEquals? ('-' :: '-' :: rest) with
          | none =>
            simp only [Option.map_none, Option.getD_none]
            match hstarting : Flag.startingWith ('-' :: '-' :: rest) with
            | [] => exact Or.inr (Or.inr (Or.inr rfl))
            | [flag] =>
              obtain ⟨hlength, hlong⟩ := Flag.isPrefix_of_startingWith hstarting
              exact Or.inl ⟨flag, none, .bare (.long hlength hlong), rfl⟩
            | flag :: other :: flags =>
              obtain rfl := Flag.eq_nil_of_startingWith hstarting
              exact Or.inr (Or.inr (Or.inl ⟨Or.inl rfl, _, rfl⟩))
          | some split =>
            obtain ⟨before, after⟩ := split
            obtain ⟨more, rfl, rfl⟩ : ∃ more, before = '-' :: '-' :: more ∧
                rest = more ++ '=' :: after := by
              have htext := eq_append_of_splitAtEquals? hat
              match before, htext with
              | [], htext => simp at htext
              | [c], htext => simp at htext
              | c :: c' :: more, htext =>
                obtain ⟨rfl, rfl, rfl⟩ : '-' = c ∧ '-' = c' ∧ rest = _ := by simpa using htext
                exact ⟨more, rfl, rfl⟩
            simp only [Option.map_some, Option.getD_some]
            match hstarting : Flag.startingWith ('-' :: '-' :: more) with
            | [] => exact Or.inr (Or.inr (Or.inr rfl))
            | [flag] =>
              obtain ⟨hlength, hlong⟩ := Flag.isPrefix_of_startingWith hstarting
              exact Or.inl ⟨flag, _, .longEquals hlength hlong, rfl⟩
            | flag :: other :: flags =>
              obtain rfl := Flag.eq_nil_of_startingWith hstarting
              exact Or.inr (Or.inr (Or.inl ⟨Or.inr (List.prefix_append _ after), _, rfl⟩))
        · rw [if_neg hsecond]
          cases hletter : Flag.ofLetter? second with
          | none => exact Or.inr (Or.inr (Or.inr rfl))
          | some flag =>
            have hshort := Flag.ofLetter?_eq_some_iff.mp hletter
            refine Or.inl ⟨flag, _, ?_, rfl⟩
            match rest with
            | [] =>
              have hfull' : Flag.ofText? ['-', second] = some flag := hletter
              rw [hfull] at hfull'
              cases hfull'
            | next :: rest =>
              refine .behindLetter hshort ?_
              rintro rfl
              have hname := (Flag.IsName.letter hshort).equals_not_mem
              have hsplit : splitAtEquals? ('-' :: second :: '=' :: rest) =
                  some (['-', second], rest) := splitAtEquals?_append hname rest
              have hfull' : Flag.ofText? ['-', second] = some flag := hletter
              simp only [hsplit, hfull', Option.bind_eq_bind, Option.bind_some, Option.map_some,
                reduceCtorEq] at hnone
  · next hdash => exact Or.inr (Or.inl ⟨fun second rest heq => hdash second rest heq, rfl⟩)

theorem ofText_eq_flag_iff {text : String} {flag : Flag} {attached? : Option Attached} :
    Argument.ofText text = .ok (.flag flag attached?) ↔ Spells flag attached? text.toList := by
  refine ⟨fun h => ?_, ofText_of_spells⟩
  rcases ofText_cases text with ⟨flag', attached', hspells, heq⟩ | ⟨-, heq⟩ | ⟨-, fault, heq⟩ | heq
  · rw [heq] at h
    cases h
    exact hspells
  · rw [heq] at h
    cases h
  · rw [heq] at h
    cases h
  · rw [heq] at h
    split at h <;> cases h

/-- A text that does not start as options do is a value. -/
theorem ofText_of_forall_ne {text : String}
    (h : ∀ second rest, text.toList ≠ '-' :: second :: rest) :
    Argument.ofText text = .ok (.value text) := by
  unfold Argument.ofText
  dsimp only
  split
  · next second rest heq => exact absurd heq (h second rest)
  · rfl

/-- Two minuses before an equals sign are the beginning of all long forms. -/
theorem ofText_of_open {text : String} (h : ['-', '-', '='] <+: text.toList) :
    ∃ fault, Argument.ofText text = .error fault := by
  obtain ⟨rest, hrest⟩ := h
  unfold Argument.ofText
  rw [← hrest]
  have hnone : Flag.ofText? ('-' :: '-' :: '=' :: rest) = none :=
    Flag.ofText?_of_equals_mem (List.mem_cons_of_mem _ (List.mem_cons_of_mem _ List.mem_cons_self))
  have hsplit : splitAtEquals? ('-' :: '-' :: '=' :: rest) = some (['-', '-'], rest) :=
    splitAtEquals?_append (by decide : '=' ∉ ['-', '-']) rest
  have hopen : Flag.ofText? ['-', '-'] = none := rfl
  have hall : Flag.startingWith ['-', '-'] = Flag.all := rfl
  refine ⟨.ambiguous text Flag.all, ?_⟩
  simp only [List.cons_append, List.nil_append, hnone, hsplit, Option.bind_eq_bind, Option.bind_some,
    hopen, Option.map_none, BEq.rfl, if_true, Option.map_some, Option.getD_some, hall]
  rfl

theorem ofText_eq_value_iff {text value : String} :
    Argument.ofText text = .ok (.value value) ↔ value = text ∧ IsPlain text.toList := by
  constructor
  · intro h
    have hspells (flag : Flag) (attached? : Option Attached) :
        ¬ Spells flag attached? text.toList := by
      intro hspells
      rw [ofText_of_spells hspells] at h
      cases h
    have hopen : ¬ ['-', '-', '='] <+: text.toList := by
      intro hopen
      obtain ⟨fault, hfault⟩ := ofText_of_open hopen
      rw [hfault] at h
      cases h
    rcases ofText_cases text with ⟨flag, attached?, h', -⟩ | ⟨hdash, heq⟩ | ⟨-, fault, heq⟩ | heq
    · exact absurd h' (hspells flag attached?)
    · rw [heq] at h
      cases h
      exact ⟨rfl, Or.inl hdash⟩
    · rw [heq] at h
      cases h
    · rw [heq] at h
      split at h
      · next hplain =>
        cases h
        rw [Bool.or_eq_true, List.contains_iff_mem] at hplain
        exact ⟨rfl, Or.inr ⟨hspells, hopen, hplain⟩⟩
      · cases h
  · rintro ⟨rfl, hdash | ⟨hspells, hclosed, hplain⟩⟩
    · exact ofText_of_forall_ne hdash
    · rcases ofText_cases value with ⟨flag, attached?, h, -⟩ | ⟨-, heq⟩ | ⟨hopen, -⟩ | heq
      · exact absurd h (hspells flag attached?)
      · exact heq
      · rcases hopen with htext | hopen
        · rw [htext] at hplain
          exact absurd hplain (by decide)
        · exact absurd hopen hclosed
      · rw [heq, if_pos]
        rwa [Bool.or_eq_true, List.contains_iff_mem]

theorem ofText_ne_separator (text : String) (rest : List String) :
    Argument.ofText text ≠ .ok (.separator rest) := by
  intro h
  rcases ofText_cases text with ⟨flag, attached?, -, heq⟩ | ⟨-, heq⟩ | ⟨-, fault, heq⟩ | heq
  · rw [heq] at h
    cases h
  · rw [heq] at h
    cases h
  · rw [heq] at h
    cases h
  · rw [heq] at h
    split at h <;> cases h

end QuoteStack.CommandLine
