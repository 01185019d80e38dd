import QuoteStack.Proofs.Program.Level
import QuoteStack.Proofs.Program.Source

/-!
Joined program texts. A blank ends every token before it and adds nothing to a program, so what
stands before a blank is read as if it stood alone. A text that leaves no level open and closes none
that it has not opened is read to its end, and its values come below those of the text behind it.
The main statement is `programOf_append`.
-/

namespace QuoteStack

namespace Token

/-! ## A blank behind a text -/

section
variable {b : Char}

theorem takeWhile_append_of_stop {p : Char → Bool} (hb : p b = false) (text after : List Char) :
    (text ++ b :: after).takeWhile p = text.takeWhile p := by
  induction text with
  | nil => rw [List.nil_append, List.takeWhile_cons, hb, if_neg (by decide), List.takeWhile_nil]
  | cons c rest ih => rw [List.cons_append, List.takeWhile_cons, List.takeWhile_cons, ih]

theorem dropWhile_append_of_stop {p : Char → Bool} (hb : p b = false) (text after : List Char) :
    (text ++ b :: after).dropWhile p = text.dropWhile p ++ b :: after := by
  induction text with
  | nil => rw [List.nil_append, List.dropWhile_cons, hb, if_neg (by decide)]; rfl
  | cons c rest ih =>
    rw [List.cons_append, List.dropWhile_cons, List.dropWhile_cons, ih]
    split <;> rfl

theorem fraction_append_blank (hb : Text.isBlank b = true) (text after : List Char) :
    fraction (text ++ b :: after) = fraction text := by
  obtain ⟨-, hdigit, hpoint, -⟩ := not_lexical_of_isBlank hb
  match text with
  | [] =>
    rw [List.nil_append, fraction.eq_def, fraction.eq_def]
    split
    · next h => exact absurd (List.cons.inj h).1 hpoint
    · rfl
  | ['.'] => simp [fraction, hdigit]
  | [c] =>
    by_cases hc : c = '.'
    · subst hc
      simp [fraction, hdigit]
    · simp [fraction, hc]
  | c :: d :: rest =>
    by_cases hc : c = '.'
    · subst hc
      simp only [fraction, List.cons_append, takeWhile_append_of_stop hdigit]
    · simp [fraction, hc]

/-- A token that is no blank ends at a blank at the latest. -/
theorem headToken?_append_blank (hb : Text.isBlank b = true) {c : Char}
    (hc : Text.isBlank c = false) (text after : List Char) :
    headToken? c (text ++ b :: after) = headToken? c text := by
  obtain ⟨hword, hdigit, -⟩ := not_lexical_of_isBlank hb
  unfold headToken?
  rw [takeWhile_append_of_stop hword, takeWhile_append_of_stop hdigit,
    dropWhile_append_of_stop hdigit, fraction_append_blank hb, hc]
  rfl

end

end Token

namespace Program

open Token (tokensFrom)

/-! ## Reading a text before a blank -/

/-- A blank adds nothing to a program. -/
theorem readFrom_blank {b : Char} (hb : Text.isBlank b = true) (start : Nat) (text : List Char)
    (current : List Value) (levels : List (List Value)) :
    readFrom .values current levels (tokensFrom start (b :: text)) =
      readFrom .values current levels (tokensFrom (start + 1) text) := by
  have hbehind := Token.not_of_head?_dropWhile Text.isBlank text
  -- the blanks behind it make one run with it, and are a run without it
  have hwith := readFrom_run (Token.forall_mem_run hb text) hbehind start current levels
  have hrun : ∀ c ∈ text.takeWhile Text.isBlank, Text.isBlank c = true :=
    fun c hc => List.mem_takeWhile_imp hc
  have hwithout := readFrom_run hrun hbehind (start + 1) current levels
  rw [List.cons_append, List.takeWhile_append_dropWhile, List.length_cons] at hwith
  rw [List.takeWhile_append_dropWhile] at hwithout
  rw [hwith, hwithout, Nat.add_assoc, Nat.add_comm 1]

/-- What stands before a blank is read as if it stood alone. If that does not end the program, and
leaves no level open, the text behind the blank is read on top of it. -/
theorem readFrom_append_blank {b : Char} (hb : Text.isBlank b = true) (start : Nat)
    (text after : List Char) (current : List Value) (levels : List (List Value)) :
    match readFrom .values current levels (tokensFrom start text) with
    | .error fault =>
        readFrom .values current levels (tokensFrom start (text ++ b :: after)) = .error fault
    | .ok reading => reading.warning? = none →
        readFrom .values current levels (tokensFrom start (text ++ b :: after)) =
          readFrom .values reading.program [] (tokensFrom (start + text.length + 1) after) := by
  -- by induction on the length, as a token is taken off with all its characters
  induction hlength : text.length using Nat.strongRecOn generalizing start text current levels with
  | _ length ih =>
    subst hlength
    cases text with
    | nil =>
      rw [Token.tokensFrom_nil, readFrom, List.nil_append, readFrom_blank hb]
      intro hnone
      cases levels with
      | nil => rfl
      | cons outer more => cases hnone
    | cons c rest =>
      by_cases hblank : Text.isBlank c = true
      · have hrest := ih rest.length (Nat.lt_succ_self _) (start + 1) rest current levels rfl
        rw [List.cons_append, readFrom_blank hblank, readFrom_blank hblank, List.length_cons,
          ← Nat.add_assoc, Nat.add_right_comm start]
        exact hrest
      · -- no token goes on across the blank, so the same one is taken off on both sides
        have hhead := Token.headToken?_append_blank hb (Bool.eq_false_iff.mpr hblank) rest after
        rw [List.cons_append]
        cases hfound : Token.headToken? c rest with
        | none =>
          have hrest := ih rest.length (Nat.lt_succ_self _) (start + 1) rest current levels rfl
          rw [hfound] at hhead
          rw [Token.tokensFrom_skip hfound, Token.tokensFrom_skip hhead, List.length_cons,
            ← Nat.add_assoc, Nat.add_right_comm start]
          exact hrest
        | some found =>
          obtain ⟨kind, more⟩ := found
          obtain ⟨-, behind, rfl⟩ := Token.isLexeme_of_headToken? hfound
          have hshort : behind.length < (c :: (more ++ behind)).length := by
            rw [List.length_cons, List.length_append]
            omega
          have hplace : start + (c :: (more ++ behind)).length + 1 =
              start + more.length + 1 + behind.length + 1 := by
            rw [List.length_cons, List.length_append]
            omega
          rw [hfound, List.append_assoc] at hhead
          rw [Token.tokensFrom_cons hfound, List.append_assoc, Token.tokensFrom_cons hhead,
            readFrom_cons_eq, readFrom_cons_eq, hplace]
          dsimp only
          cases advance .values current levels kind (String.ofList (c :: more)) with
          | error fault => rfl
          | ok next? =>
            cases next? with
            | none =>
              intro hnone
              cases hnone
            | some next => exact ih behind.length hshort _ behind next.1 next.2 rfl

/-! ## Reading a text behind others -/

/-- Values read before come below those of the program. -/
theorem readFrom_below (below : List Value) (tokens : List Token) :
    readFrom .values below [] tokens = (readFrom .values [] [] tokens).map fun reading =>
      { reading with program := reading.program ++ below } := by
  rw [readFrom_eq_resume, readFrom_eq_resume]
  cases readLevel .values tokens with
  | error fault => rfl
  | ok level =>
    obtain ⟨values, stop⟩ := level
    cases stop <;> simp [Except.bind, Except.map, Level.resume, closeAll]

/-- Where a text stands makes no difference to its program. -/
theorem program_readFrom_start (start start' : Nat) (text : List Char) (current : List Value)
    (levels : List (List Value)) :
    (readFrom .values current levels (tokensFrom start text)).map Reading.program =
      (readFrom .values current levels (tokensFrom start' text)).map Reading.program := by
  induction text using Token.scan_induction generalizing start start' current levels with
  | nil => rw [Token.tokensFrom_nil, Token.tokensFrom_nil]
  | skip c rest hhead ih =>
    rw [Token.tokensFrom_skip hhead, Token.tokensFrom_skip hhead]
    exact ih _ _ current levels
  | token c kind more after hhead ih =>
    rw [Token.tokensFrom_cons hhead, Token.tokensFrom_cons hhead, readFrom_cons_eq,
      readFrom_cons_eq]
    dsimp only
    cases advance .values current levels kind (String.ofList (c :: more)) with
    | error fault => rfl
    | ok next? =>
      cases next? with
      | none => rfl
      | some next => exact ih _ _ next.1 next.2

/-- The program that a text is read as. -/
def programOf (source : String) : Except Fault (List Value) :=
  (ofSource source).map Reading.program

/-- Of two texts with a blank between them, the first one is read below the second one, if it is
nested as it should be. -/
theorem programOf_append {s : String} (t : String)
    (hs : ∀ reading, ofSource s = .ok reading → reading.warning? = none) :
    programOf (s ++ " " ++ t) =
      (programOf s).bind fun below => (programOf t).map fun above => above ++ below := by
  have hread := readFrom_append_blank (show Text.isBlank ' ' = true by decide) 0 s.toList t.toList
    [] []
  have htext : (s ++ " " ++ t).toList = s.toList ++ ' ' :: t.toList := by
    rw [String.toList_append, String.toList_append, List.append_assoc]
    rfl
  have hsource : ofSource s = readFrom .values [] [] (tokensFrom 0 s.toList) := rfl
  have hjoined : ofSource (s ++ " " ++ t) =
      readFrom .values [] [] (tokensFrom 0 (s.toList ++ ' ' :: t.toList)) := by
    rw [← htext]
    rfl
  rw [← hsource, ← hjoined] at hread
  unfold programOf
  cases hresult : ofSource s with
  | error fault =>
    rw [hresult] at hread
    rw [hread]
    rfl
  | ok below =>
    rw [hresult] at hread
    have hstart := program_readFrom_start (0 + s.toList.length + 1) 0 t.toList [] []
    rw [hread (hs below hresult), readFrom_below]
    show _ = ((readFrom .values [] [] (tokensFrom 0 t.toList)).map Reading.program).map _
    rw [← hstart]
    cases readFrom .values [] [] (tokensFrom (0 + s.toList.length + 1) t.toList) <;> rfl

end Program

end QuoteStack
