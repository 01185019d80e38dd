import Mathlib.Data.List.TakeWhile
import QuoteStack.Proofs.Decimal.Numeral
import QuoteStack.Token.Scan

/-!
Lexemes: the texts that tokens are made of. Scanning takes the whole of a lexeme off a text as soon
as what follows cannot extend it, and every token of a text has a lexeme of its kind.
-/

namespace QuoteStack.Token

/-- A word: a symbol character, and then at least one character that a word may go on with. -/
def IsWord : List Char → Prop
  | first :: second :: rest =>
    isSymbolChar first = true ∧ ∀ c ∈ second :: rest, isWordChar c = true
  | _ => False

instance : (text : List Char) → Decidable (IsWord text)
  | [] | [_] => isFalse id
  | first :: second :: rest =>
    have hiff : (isSymbolChar first && (second :: rest).all isWordChar) = true ↔
        IsWord (first :: second :: rest) := by
      rw [Bool.and_eq_true, List.all_eq_true, IsWord]
    decidable_of_decidable_of_iff hiff

/-- What a token of a kind is made of. -/
def IsLexeme (kind : TokenKind) (text : List Char) : Prop :=
  match kind with
  | .word => IsWord text
  | .quoteOpen => text = [openMark]
  | .quoteClose => text = [closeMark]
  | .blank => text ≠ [] ∧ ∀ c ∈ text, Text.isBlank c = true
  | .number => ∃ whole fraction, Decimal.IsNumeral whole fraction ∧
      text = Decimal.numeral whole fraction
  | .other _ => False

/-! ## Classes of characters -/

theorem not_isSymbolChar_of_isDigit {c : Char} (h : c.isDigit = true) : isSymbolChar c = false := by
  have hbounds := Char.isDigit_iff_toNat.mp h
  have hlow : 48 ≤ c.toNat := hbounds.1
  have hhigh : c.toNat ≤ 57 := hbounds.2
  have hcases : c.toNat = 48 ∨ c.toNat = 49 ∨ c.toNat = 50 ∨ c.toNat = 51 ∨ c.toNat = 52 ∨
      c.toNat = 53 ∨ c.toNat = 54 ∨ c.toNat = 55 ∨ c.toNat = 56 ∨ c.toNat = 57 := by omega
  rw [← Char.ofNat_toNat c]
  rcases hcases with h | h | h | h | h | h | h | h | h | h <;> rw [h] <;> decide

/-- A digit starts nothing but a number. -/
theorem headToken?_of_isDigit {c : Char} (h : c.isDigit = true) (rest : List Char) :
    headToken? c rest =
      some (.number, rest.takeWhile Char.isDigit ++ fraction (rest.dropWhile Char.isDigit)) := by
  have hopen : (c == openMark) = false := by
    rw [beq_eq_false_iff_ne]
    rintro rfl
    exact absurd h (by decide)
  have hclose : (c == closeMark) = false := by
    rw [beq_eq_false_iff_ne]
    rintro rfl
    exact absurd h (by decide)
  unfold headToken?
  rw [not_isSymbolChar_of_isDigit h, hopen, hclose, Decimal.not_isBlank_of_isDigit h, h]
  rfl

/-- A blank is no character of a word, of a number or of a mark. -/
theorem not_lexical_of_isBlank {c : Char} (h : Text.isBlank c = true) :
    isWordChar c = false ∧ c.isDigit = false ∧ c ≠ '.' ∧ c ≠ openMark ∧ c ≠ closeMark := by
  have hcode : c.toNat ∈ Text.blankCodes := by
    unfold Text.isBlank at h
    rwa [List.contains_iff_mem] at h
  have hall : ∀ n ∈ Text.blankCodes, isWordChar (Char.ofNat n) = false ∧
      (Char.ofNat n).isDigit = false ∧ Char.ofNat n ≠ '.' ∧ Char.ofNat n ≠ openMark ∧
      Char.ofNat n ≠ closeMark := by decide
  have hchar := hall c.toNat hcode
  rwa [Char.ofNat_toNat] at hchar

theorem not_isBlank_of_isSymbolChar {c : Char} (h : isSymbolChar c = true) :
    Text.isBlank c = false := by
  refine Bool.eq_false_iff.mpr fun hblank => ?_
  have hword := (not_lexical_of_isBlank hblank).1
  unfold isWordChar at hword
  rw [h] at hword
  cases hword

theorem isWordChar_of_isWord {text : List Char} (h : IsWord text) {c : Char} (hc : c ∈ text) :
    isWordChar c = true := by
  match text, h with
  | first :: second :: rest, h =>
    rcases List.mem_cons.mp hc with rfl | hc
    · unfold isWordChar
      rw [h.1]
      rfl
    · exact h.2 c hc

/-! ## Taking a lexeme off a text -/

/-- The characters of a class at the head of a text are all taken, up to one that is none. -/
theorem takeWhile_append_eq {p : Char → Bool} {body rest : List Char}
    (hbody : ∀ c ∈ body, p c = true) (hrest : ∀ c, rest.head? = some c → p c = false) :
    (body ++ rest).takeWhile p = body := by
  rw [List.takeWhile_append_of_pos hbody]
  cases rest with
  | nil => simp only [List.takeWhile_nil, List.append_nil]
  | cons c rest => rw [List.takeWhile_cons, hrest c rfl, if_neg (by decide), List.append_nil]

theorem dropWhile_append_eq {p : Char → Bool} {body rest : List Char}
    (hbody : ∀ c ∈ body, p c = true) (hrest : ∀ c, rest.head? = some c → p c = false) :
    (body ++ rest).dropWhile p = rest := by
  rw [List.dropWhile_append_of_pos hbody]
  cases rest with
  | nil => rfl
  | cons c rest => rw [List.dropWhile_cons, hrest c rfl, if_neg (by decide)]

section
variable {c : Char} {more after : List Char}

theorem headToken?_word (h : IsWord (c :: more))
    (hafter : ∀ d, after.head? = some d → isWordChar d = false) :
    headToken? c (more ++ after) = some (.word, more) := by
  cases more with
  | nil => exact h.elim
  | cons d more =>
    obtain ⟨hfirst, hmore⟩ := h
    unfold headToken?
    rw [hfirst, if_pos rfl, takeWhile_append_eq hmore hafter]

theorem headToken?_blank (h : Text.isBlank c = true) (hmore : ∀ d ∈ more, Text.isBlank d = true)
    (hafter : ∀ d, after.head? = some d → Text.isBlank d = false) :
    headToken? c (more ++ after) = some (.blank, more) := by
  have hsymbol : isSymbolChar c = false := by
    refine Bool.eq_false_iff.mpr fun hsymbol => ?_
    rw [not_isBlank_of_isSymbolChar hsymbol] at h
    cases h
  obtain ⟨-, -, -, hopen, hclose⟩ := not_lexical_of_isBlank h
  unfold headToken?
  rw [hsymbol, beq_false_of_ne hopen, beq_false_of_ne hclose, h, takeWhile_append_eq hmore hafter]
  rfl

/-- A whole run of digits is a number, if what follows it is no fraction. -/
theorem headToken?_digits (h : ∀ d ∈ c :: more, d.isDigit = true)
    (hafter : ∀ d, after.head? = some d → d.isDigit = false) (hfraction : fraction after = []) :
    headToken? c (more ++ after) = some (.number, more) := by
  have hmore : ∀ d ∈ more, d.isDigit = true := fun d hd => h d (List.mem_cons_of_mem _ hd)
  rw [headToken?_of_isDigit (h c List.mem_cons_self), takeWhile_append_eq hmore hafter,
    dropWhile_append_eq hmore hafter, hfraction, List.append_nil]

/-- A point behind digits counts, with the whole run of digits behind it, if there is one. -/
theorem headToken?_withFraction {digits : List Char} (hwhole : ∀ d ∈ c :: more, d.isDigit = true)
    (hdigits : ∀ d ∈ digits, d.isDigit = true) (hnonempty : digits ≠ [])
    (hafter : ∀ d, after.head? = some d → d.isDigit = false) :
    headToken? c ((more ++ '.' :: digits) ++ after) = some (.number, more ++ '.' :: digits) := by
  have hmore : ∀ d ∈ more, d.isDigit = true := fun d hd => hwhole d (List.mem_cons_of_mem _ hd)
  have hpoint : ∀ d, ('.' :: (digits ++ after)).head? = some d → d.isDigit = false := by
    intro d hd
    obtain rfl : '.' = d := Option.some.inj hd
    decide
  obtain ⟨d, others, rfl⟩ := List.exists_cons_of_ne_nil hnonempty
  have hothers : (others ++ after).takeWhile Char.isDigit = others :=
    takeWhile_append_eq (fun e he => hdigits e (List.mem_cons_of_mem _ he)) hafter
  have hfraction : fraction ('.' :: (d :: others ++ after)) = '.' :: d :: others := by
    unfold fraction
    rw [List.cons_append]
    simp only [hdigits d List.mem_cons_self, if_true, hothers]
  rw [headToken?_of_isDigit (hwhole c List.mem_cons_self), List.append_assoc, List.cons_append,
    takeWhile_append_eq hmore hpoint, dropWhile_append_eq hmore hpoint, hfraction]

theorem headToken?_number {whole digits : List Char} (h : Decimal.IsNumeral whole digits)
    (htext : c :: more = Decimal.numeral whole digits)
    (hafter : ∀ d, after.head? = some d → d.isDigit = false ∧ d ≠ '.') :
    headToken? c (more ++ after) = some (.number, more) := by
  have hnone := fun d hd => (hafter d hd).1
  unfold Decimal.numeral at htext
  split at htext
  · subst htext
    refine headToken?_digits h.whole_digits hnone ?_
    unfold fraction
    split
    · exact absurd rfl (hafter '.' rfl).2
    · rfl
  · next hdigits =>
    obtain ⟨first, others, rfl⟩ := List.exists_cons_of_ne_nil h.nonempty
    rw [List.cons_append] at htext
    injection htext with hc hmore
    subst hc hmore
    exact headToken?_withFraction h.whole_digits h.fraction_digits hdigits hnone

end

/-! ## What a token is made of -/

theorem fraction_isStart (text : List Char) : fraction text <+: text := by
  unfold fraction
  split
  · split
    · exact List.cons_prefix_cons.mpr ⟨rfl, List.cons_prefix_cons.mpr ⟨rfl, List.takeWhile_prefix _⟩⟩
    · exact List.nil_prefix
  · exact List.nil_prefix

/-- A character of a class and the run behind it are all of the class. -/
theorem forall_mem_run {p : Char → Bool} {c : Char} (hc : p c = true) (rest : List Char) :
    ∀ d ∈ c :: rest.takeWhile p, p d = true := by
  intro d hd
  rcases List.mem_cons.mp hd with rfl | hd
  · exact hc
  · exact List.mem_takeWhile_imp hd

/-- What stands behind a run of characters of a class is none of the class. -/
theorem not_of_head?_dropWhile (p : Char → Bool) (rest : List Char) :
    ∀ d, (rest.dropWhile p).head? = some d → p d = false := by
  intro d hd
  have hnot := List.head?_dropWhile_not p rest
  rw [hd] at hnot
  simpa using hnot

/-- A run of digits with the fraction behind it is a numeral. -/
theorem exists_numeral_of_isDigit {c : Char} (h : c.isDigit = true) (rest : List Char) :
    ∃ whole digits, Decimal.IsNumeral whole digits ∧
      c :: (rest.takeWhile Char.isDigit ++ fraction (rest.dropWhile Char.isDigit)) =
        Decimal.numeral whole digits := by
  have hwhole := forall_mem_run h rest
  have hplain : Decimal.IsNumeral (c :: rest.takeWhile Char.isDigit) [] :=
    ⟨List.cons_ne_nil _ _, hwhole, fun d hd => absurd hd List.not_mem_nil⟩
  unfold fraction
  split
  · next d behind _ =>
    split
    · next hd =>
      exact ⟨c :: rest.takeWhile Char.isDigit, d :: behind.takeWhile Char.isDigit,
        ⟨List.cons_ne_nil _ _, hwhole, forall_mem_run hd _⟩, rfl⟩
    · rw [List.append_nil]
      exact ⟨_, [], hplain, rfl⟩
  · rw [List.append_nil]
    exact ⟨_, [], hplain, rfl⟩

/-- What stands at the head of a text: a token, with its characters behind the first one, or none. -/
inductive TakesHead (c : Char) (rest : List Char) : Option (TokenKind × List Char) → Prop where
  | word (symbol : isSymbolChar c = true) (more : rest.takeWhile isWordChar ≠ []) :
      TakesHead c rest (some (.word, rest.takeWhile isWordChar))
  | alone (symbol : isSymbolChar c = true) (single : rest.takeWhile isWordChar = []) :
      TakesHead c rest none
  | quoteOpen (mark : c = openMark) : TakesHead c rest (some (.quoteOpen, []))
  | quoteClose (mark : c = closeMark) : TakesHead c rest (some (.quoteClose, []))
  | blank (blank : Text.isBlank c = true) :
      TakesHead c rest (some (.blank, rest.takeWhile Text.isBlank))
  | number (digit : c.isDigit = true) :
      TakesHead c rest
        (some (.number, rest.takeWhile Char.isDigit ++ fraction (rest.dropWhile Char.isDigit)))
  | other (notSymbol : isSymbolChar c = false) (notOpen : c ≠ openMark) (notClose : c ≠ closeMark)
      (notBlank : Text.isBlank c = false) (notDigit : c.isDigit = false) : TakesHead c rest none

/-- All that taking a token off the head of a text can do. -/
theorem takesHead_headToken? (c : Char) (rest : List Char) :
    TakesHead c rest (headToken? c rest) := by
  unfold headToken?
  split
  · next hsymbol =>
    split
    · next hsingle => exact .alone hsymbol hsingle
    · next hmore => exact .word hsymbol hmore
  · next hsymbol =>
    split
    · next hopen => exact .quoteOpen (beq_iff_eq.mp hopen)
    · next hopen =>
      split
      · next hclose => exact .quoteClose (beq_iff_eq.mp hclose)
      · next hclose =>
        split
        · next hblank => exact .blank hblank
        · next hblank =>
          split
          · next hdigit => exact .number hdigit
          · next hdigit =>
            exact .other (Bool.eq_false_iff.mpr hsymbol) (fun h => hopen (beq_iff_eq.mpr h))
              (fun h => hclose (beq_iff_eq.mpr h)) (Bool.eq_false_iff.mpr hblank)
              (Bool.eq_false_iff.mpr hdigit)

/-- The token at the head of a text is made of a lexeme, and of characters of the text. -/
theorem isLexeme_of_headToken? {c : Char} {rest more : List Char} {kind : TokenKind}
    (h : headToken? c rest = some (kind, more)) : IsLexeme kind (c :: more) ∧ more <+: rest := by
  have htakes := takesHead_headToken? c rest
  rw [h] at htakes
  cases htakes with
  | word hsymbol hmore =>
    refine ⟨?_, List.takeWhile_prefix _⟩
    obtain ⟨d, others, hd⟩ := List.exists_cons_of_ne_nil hmore
    have hall : ∀ e ∈ rest.takeWhile isWordChar, isWordChar e = true :=
      fun e he => List.mem_takeWhile_imp he
    rw [hd] at hall ⊢
    exact ⟨hsymbol, hall⟩
  | quoteOpen hmark =>
    rw [hmark]
    exact ⟨rfl, List.nil_prefix⟩
  | quoteClose hmark =>
    rw [hmark]
    exact ⟨rfl, List.nil_prefix⟩
  | blank hblank =>
    exact ⟨⟨List.cons_ne_nil _ _, forall_mem_run hblank _⟩, List.takeWhile_prefix _⟩
  | number hdigit =>
    refine ⟨exists_numeral_of_isDigit hdigit rest, ?_⟩
    calc rest.takeWhile Char.isDigit ++ fraction (rest.dropWhile Char.isDigit)
        <+: rest.takeWhile Char.isDigit ++ rest.dropWhile Char.isDigit :=
          (List.prefix_append_right_inj _).mpr (fraction_isStart _)
      _ = rest := List.takeWhile_append_dropWhile

/-- Induction over a text as scanning takes it apart: from its end, over a character at which no token
starts, and over a token with what stands behind it. -/
@[elab_as_elim]
theorem scan_induction {motive : List Char → Prop} (nil : motive [])
    (skip : ∀ c rest, headToken? c rest = none → motive rest → motive (c :: rest))
    (token : ∀ c kind more after, headToken? c (more ++ after) = some (kind, more) →
      motive after → motive (c :: (more ++ after)))
    (text : List Char) : motive text := by
  induction hlength : text.length using Nat.strongRecOn generalizing text with
  | _ length ih =>
    subst hlength
    cases text with
    | nil => exact nil
    | cons c rest =>
      cases hhead : headToken? c rest with
      | none => exact skip c rest hhead (ih rest.length (Nat.lt_succ_self _) rest rfl)
      | some found =>
        obtain ⟨kind, more⟩ := found
        obtain ⟨-, after, rfl⟩ := isLexeme_of_headToken? hhead
        have hshort : after.length < (c :: (more ++ after)).length := by
          rw [List.length_cons, List.length_append]
          omega
        exact token c kind more after hhead (ih after.length hshort after rfl)

/-! ## The tokens of the rest of a text -/

/-- The tokens of the rest of a text, which begins at `start`. -/
def tokensFrom (start : Nat) (text : List Char) : List Token :=
  scanFrom start [] text

theorem tokensFrom_nil (start : Nat) : tokensFrom start [] = [] := by
  rw [tokensFrom, scanFrom]
  rfl

/-- The tokens found before are kept. -/
theorem scanFrom_eq (start : Nat) (done : List Token) (text : List Char) :
    scanFrom start done text = done.reverse ++ tokensFrom start text := by
  induction text using scan_induction generalizing start done with
  | nil => rw [tokensFrom_nil, scanFrom, List.append_nil]
  | skip c rest hhead ih =>
    rw [tokensFrom, scanFrom, scanFrom, hhead]
    exact ih (start + 1) done
  | token c kind more after hhead ih =>
    rw [tokensFrom, scanFrom, scanFrom, hhead]
    dsimp only
    rw [List.drop_left, ih _ (_ :: done), ih _ [_], List.reverse_cons, List.append_assoc]
    rfl

section
variable {c : Char} {start : Nat} {kind : TokenKind}

/-- A character at which no token starts is skipped. -/
theorem tokensFrom_skip {rest : List Char} (h : headToken? c rest = none) :
    tokensFrom start (c :: rest) = tokensFrom (start + 1) rest := by
  rw [tokensFrom, scanFrom, h]
  rfl

/-- The token at the head comes first. -/
theorem tokensFrom_cons {more after : List Char}
    (h : headToken? c (more ++ after) = some (kind, more)) :
    tokensFrom start (c :: (more ++ after)) =
      ⟨kind, start, more.length + 1, String.ofList (c :: more)⟩ ::
        tokensFrom (start + more.length + 1) after := by
  rw [tokensFrom, scanFrom, h]
  dsimp only
  rw [scanFrom_eq, List.drop_left]
  rfl

end

theorem tokensFrom_openMark (start : Nat) (rest : List Char) :
    tokensFrom start (openMark :: rest) =
      ⟨.quoteOpen, start, 1, String.ofList [openMark]⟩ :: tokensFrom (start + 1) rest := by
  have hhead : headToken? openMark ([] ++ rest) = some (.quoteOpen, []) := rfl
  exact tokensFrom_cons hhead

theorem tokensFrom_closeMark (start : Nat) (rest : List Char) :
    tokensFrom start (closeMark :: rest) =
      ⟨.quoteClose, start, 1, String.ofList [closeMark]⟩ :: tokensFrom (start + 1) rest := by
  have hhead : headToken? closeMark ([] ++ rest) = some (.quoteClose, []) := rfl
  exact tokensFrom_cons hhead

/-- Every token of a text is made of a lexeme of its kind, which is not longer than the text. -/
theorem isLexeme_of_mem {start : Nat} {text : List Char} {token : Token}
    (h : token ∈ tokensFrom start text) :
    IsLexeme token.kind token.text.toList ∧ token.text.toList.length ≤ text.length := by
  induction text using scan_induction generalizing start with
  | nil =>
    rw [tokensFrom_nil] at h
    exact absurd h List.not_mem_nil
  | skip c rest hhead ih =>
    rw [tokensFrom_skip hhead] at h
    exact ⟨(ih h).1, Nat.le_succ_of_le (ih h).2⟩
  | token c kind more after hhead ih =>
    rw [tokensFrom_cons hhead] at h
    simp only [List.length_cons, List.length_append]
    rcases List.mem_cons.mp h with rfl | h
    · rw [String.toList_ofList, List.length_cons]
      exact ⟨(isLexeme_of_headToken? hhead).1, by omega⟩
    · have hshorter := (ih h).2
      exact ⟨(ih h).1, by omega⟩

/-- How many characters tokens are made of together. -/
def totalLength : List Token → Nat
  | [] => 0
  | token :: rest => token.text.toList.length + totalLength rest

/-- The tokens of a text do not overlap. -/
theorem totalLength_tokensFrom_le (start : Nat) (text : List Char) :
    totalLength (tokensFrom start text) ≤ text.length := by
  induction text using scan_induction generalizing start with
  | nil =>
    rw [tokensFrom_nil]
    exact Nat.le_refl _
  | skip c rest hhead ih =>
    rw [tokensFrom_skip hhead]
    exact Nat.le_succ_of_le (ih _)
  | token c kind more after hhead ih =>
    have hafter := ih (start + more.length + 1)
    rw [tokensFrom_cons hhead, totalLength, String.toList_ofList]
    simp only [List.length_cons, List.length_append]
    omega

end QuoteStack.Token
