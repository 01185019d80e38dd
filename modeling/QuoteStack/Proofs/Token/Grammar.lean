import Mathlib.Data.List.Basic
import QuoteStack.Proofs.Token.Lexeme

/-!
The lexical grammar, without a word on how a text is scanned: which characters a token takes, and
which ones no token takes. The laws speak of single tokens and of single characters, and yet they
leave no choice. The main statement is `tokenizes_iff`: a list of tokens keeps to them just if it is
what scanning gives.
-/

namespace QuoteStack.Token

/-! ## The laws -/

/-- A whole run of characters of a class: none of the class stands right before or behind it. -/
structure IsRun (p : Char → Bool) (before run after : List Char) : Prop where
  nonempty : run ≠ []
  all : ∀ c ∈ run, p c = true
  starts : ∀ c, before.getLast? = some c → p c = false
  ends : ∀ c, after.head? = some c → p c = false

/-- A number, between what stands before and behind it: a whole run of digits and, if a digit follows
a point behind it, the point and the whole run of digits behind the point. -/
inductive IsNumberIn (before : List Char) : List Char → List Char → Prop where
  | whole {digits after : List Char} (run : IsRun Char.isDigit before digits after)
      (plain : ∀ d rest, after = '.' :: d :: rest → d.isDigit = false) :
      IsNumberIn before digits after
  | withFraction {whole digits after : List Char}
      (run : IsRun Char.isDigit before whole ('.' :: (digits ++ after)))
      (fraction : IsRun Char.isDigit (before ++ whole ++ ['.']) digits after) :
      IsNumberIn before (whole ++ '.' :: digits) after

/-- What a token of a kind is, between what stands before and behind it. -/
def IsTokenIn (kind : TokenKind) (before lexeme after : List Char) : Prop :=
  match kind with
  | .word => IsWord lexeme ∧ ∀ c, after.head? = some c → isWordChar c = false
  | .quoteOpen => lexeme = [openMark]
  | .quoteClose => lexeme = [closeMark]
  | .blank => IsRun Text.isBlank before lexeme after
  | .number => IsNumberIn before lexeme after
  | .other _ => False

/-- What a character is that belongs to no token, given the one behind it. -/
structure IsSkipped (c : Char) (next? : Option Char) : Prop where
  notBlank : Text.isBlank c = false
  notOpen : c ≠ openMark
  notClose : c ≠ closeMark
  notDigit : c.isDigit = false
  alone : isSymbolChar c = true → ∀ d, next? = some d → isWordChar d = false

/-- Whether the character at a place of a text belongs to a token. -/
def Covers (token : Token) (place : Nat) : Prop :=
  token.start ≤ place ∧ place < token.start + token.length

/-- What the tokens keep to that a text has from a place on. -/
structure Tokenizes (text : List Char) (start : Nat) (tokens : List Token) : Prop where
  from_start : ∀ token ∈ tokens, start ≤ token.start
  /-- Tokens come in order and do not overlap. -/
  ordered : tokens.Pairwise fun token later => token.start + token.length ≤ later.start
  nonempty : ∀ token ∈ tokens, 1 ≤ token.length
  /-- The text of a token is the part of the text where the token stands. -/
  slice : ∀ token ∈ tokens, token.start + token.length ≤ text.length ∧
    token.text.toList = (text.drop token.start).take token.length
  kind : ∀ token ∈ tokens, IsTokenIn token.kind (text.take token.start) token.text.toList
    (text.drop (token.start + token.length))
  /-- A mark is a token of its own. -/
  marks : ∀ place c, start ≤ place → text[place]? = some c → c = openMark ∨ c = closeMark →
    ∃ token ∈ tokens, token.start = place ∧ token.length = 1
  skipped : ∀ place c, start ≤ place → text[place]? = some c →
    (∀ token ∈ tokens, ¬ token.Covers place) → IsSkipped c text[place + 1]?

/-! ## The token at the head of a text -/

/-- No token starts at a character just if it is one that belongs to none. -/
theorem headToken?_eq_none_iff {c : Char} {rest : List Char} :
    headToken? c rest = none ↔ IsSkipped c rest.head? := by
  constructor
  · intro h
    have htakes := takesHead_headToken? c rest
    rw [h] at htakes
    cases htakes with
    | alone hsymbol hsingle =>
      have hdigit : c.isDigit = false := by
        refine Bool.eq_false_iff.mpr fun hdigit => ?_
        rw [not_isSymbolChar_of_isDigit hdigit] at hsymbol
        cases hsymbol
      refine ⟨not_isBlank_of_isSymbolChar hsymbol, ?_, ?_, hdigit, fun _ d hd => ?_⟩
      · rintro rfl
        exact absurd hsymbol (by decide)
      · rintro rfl
        exact absurd hsymbol (by decide)
      · -- a character of a word behind it would have made a word
        obtain ⟨others, rfl⟩ := List.head?_eq_some_iff.mp hd
        refine Bool.eq_false_iff.mpr fun hword => ?_
        rw [List.takeWhile_cons, if_pos hword] at hsingle
        cases hsingle
    | other hsymbol hopen hclose hblank hdigit =>
      refine ⟨hblank, hopen, hclose, hdigit, fun hother => ?_⟩
      rw [hsymbol] at hother
      cases hother
  · intro h
    unfold headToken?
    by_cases hsymbol : isSymbolChar c = true
    · -- a sign with no word behind it is left alone, as is what is in no class
      have hnone : rest.takeWhile isWordChar = [] := by
        cases rest with
        | nil => rfl
        | cons d others =>
          rw [List.takeWhile_cons, h.alone hsymbol d rfl]
          rfl
      rw [if_pos hsymbol, hnone]
    · rw [if_neg hsymbol, beq_false_of_ne h.notOpen, beq_false_of_ne h.notClose, h.notBlank,
        h.notDigit]
      rfl

/-- A token that keeps to the laws is the one that is taken off. -/
theorem headToken?_of_isTokenIn {kind : TokenKind} {before more after : List Char} {c : Char}
    (h : IsTokenIn kind before (c :: more) after) :
    headToken? c (more ++ after) = some (kind, more) := by
  cases kind with
  | word => exact headToken?_word h.1 h.2
  | quoteOpen =>
    obtain ⟨rfl, rfl⟩ := List.cons.inj h
    rfl
  | quoteClose =>
    obtain ⟨rfl, rfl⟩ := List.cons.inj h
    rfl
  | blank =>
    exact headToken?_blank (h.all c List.mem_cons_self)
      (fun d hd => h.all d (List.mem_cons_of_mem _ hd)) h.ends
  | other name => exact h.elim
  | number =>
    generalize hlexeme : c :: more = lexeme at h
    cases h with
    | whole run plain =>
      subst hlexeme
      refine headToken?_digits run.all run.ends ?_
      unfold fraction
      split
      · next d rest => rw [plain d rest rfl, if_neg (by decide)]
      · rfl
    | @withFraction whole digits _ run fraction =>
      obtain ⟨first, others, rfl⟩ := List.exists_cons_of_ne_nil run.nonempty
      obtain ⟨rfl, rfl⟩ := List.cons.inj hlexeme
      exact headToken?_withFraction run.all fraction.all fraction.nonempty fraction.ends

/-- No run of blanks or of digits goes on from what stands before to what stands behind. -/
def IsJoint (before after : List Char) : Prop :=
  ∀ c d, before.getLast? = some c → after.head? = some d →
    (Text.isBlank c = true → Text.isBlank d = false) ∧ (c.isDigit = true → d.isDigit = false)

theorem isRun_takeWhile {p : Char → Bool} {before : List Char} {c : Char} (hc : p c = true)
    (hbefore : ∀ d, before.getLast? = some d → p d = false) (rest : List Char) :
    IsRun p before (c :: rest.takeWhile p) (rest.dropWhile p) where
  nonempty := List.cons_ne_nil _ _
  all := forall_mem_run hc rest
  starts := hbefore
  ends := not_of_head?_dropWhile p rest

section
variable {before rest : List Char} {c : Char}

theorem IsJoint.not_isBlank (h : IsJoint before (c :: rest)) (hc : Text.isBlank c = true) :
    ∀ d, before.getLast? = some d → Text.isBlank d = false := by
  intro d hd
  refine Bool.eq_false_iff.mpr fun hblank => ?_
  rw [(h d c hd rfl).1 hblank] at hc
  cases hc

theorem IsJoint.not_isDigit (h : IsJoint before (c :: rest)) (hc : c.isDigit = true) :
    ∀ d, before.getLast? = some d → d.isDigit = false := by
  intro d hd
  refine Bool.eq_false_iff.mpr fun hdigit => ?_
  rw [(h d c hd rfl).2 hdigit] at hc
  cases hc

/-- A run of digits and the fraction behind it are a number. -/
theorem IsJoint.isNumberIn (h : IsJoint before (c :: rest)) (hc : c.isDigit = true) :
    ∃ after, rest = rest.takeWhile Char.isDigit ++ fraction (rest.dropWhile Char.isDigit) ++ after ∧
      IsNumberIn before
        (c :: (rest.takeWhile Char.isDigit ++ fraction (rest.dropWhile Char.isDigit))) after := by
  have hwhole := isRun_takeWhile hc (h.not_isDigit hc) rest
  have hrest : rest.takeWhile Char.isDigit ++ rest.dropWhile Char.isDigit = rest :=
    List.takeWhile_append_dropWhile
  unfold fraction
  split
  · next d behind hbehind =>
    rw [hbehind] at hwhole hrest
    split
    · next hd =>
      -- a digit behind the point begins a fraction
      have hsplit : behind.takeWhile Char.isDigit ++ behind.dropWhile Char.isDigit = behind :=
        List.takeWhile_append_dropWhile
      refine ⟨behind.dropWhile Char.isDigit, ?_, ?_⟩
      · rw [List.append_assoc, List.cons_append, List.cons_append, hsplit, hrest]
      · refine @IsNumberIn.withFraction before (c :: rest.takeWhile Char.isDigit) _ _ ?_
          (isRun_takeWhile hd ?_ _)
        · rwa [List.cons_append, hsplit]
        · intro e he
          rw [List.getLast?_concat] at he
          obtain rfl : '.' = e := Option.some.inj he
          decide
    · next hd =>
      rw [List.append_nil]
      -- without one, the number ends before the point
      refine ⟨'.' :: d :: behind, hrest.symm, .whole hwhole fun e others heq => ?_⟩
      obtain ⟨-, heq⟩ := List.cons.inj heq
      obtain ⟨rfl, -⟩ := List.cons.inj heq
      exact Bool.eq_false_iff.mpr hd
  · next hplain =>
    rw [List.append_nil]
    exact ⟨_, hrest.symm, .whole hwhole fun e others heq => absurd heq (hplain e others)⟩

/-- The token that is taken off keeps to the laws. -/
theorem IsJoint.isTokenIn {kind : TokenKind} {more : List Char} (hjoint : IsJoint before (c :: rest))
    (h : headToken? c rest = some (kind, more)) :
    ∃ after, rest = more ++ after ∧ IsTokenIn kind before (c :: more) after := by
  obtain ⟨hlexeme, -⟩ := isLexeme_of_headToken? h
  have htakes := takesHead_headToken? c rest
  rw [h] at htakes
  cases htakes with
  | word hsymbol hmore =>
    exact ⟨rest.dropWhile isWordChar, List.takeWhile_append_dropWhile.symm, hlexeme,
      not_of_head?_dropWhile isWordChar rest⟩
  | quoteOpen hmark => exact ⟨rest, rfl, hlexeme⟩
  | quoteClose hmark => exact ⟨rest, rfl, hlexeme⟩
  | blank hblank =>
    exact ⟨rest.dropWhile Text.isBlank, List.takeWhile_append_dropWhile.symm,
      isRun_takeWhile hblank (hjoint.not_isBlank hblank) rest⟩
  | number hdigit => exact hjoint.isNumberIn hdigit

end

/-! ## Scanning keeps to the laws -/

section
variable {before lexeme after : List Char} {kind : TokenKind} {tokens : List Token}

/-- What a token is made of ends in a joint. -/
theorem IsTokenIn.isJoint (h : IsTokenIn kind before lexeme after) :
    IsJoint (before ++ lexeme) after := by
  intro c d hc hd
  have hne : lexeme ≠ [] := by
    rintro rfl
    cases kind with
    | word => exact h.1
    | quoteOpen | quoteClose => cases h
    | blank => exact h.nonempty rfl
    | number =>
      generalize hempty : ([] : List Char) = lexeme at h
      cases h with
      | whole run plain => exact run.nonempty hempty.symm
      | withFraction run fraction =>
        exact List.cons_ne_nil _ _ (List.append_eq_nil_iff.mp hempty.symm).2
    | other name => exact h
  rw [List.getLast?_append_of_ne_nil _ hne] at hc
  have hmem : c ∈ lexeme := List.mem_of_getLast? hc
  cases kind with
  | word =>
    have hword := isWordChar_of_isWord h.1 hmem
    have hnext := h.2 d hd
    unfold isWordChar at hnext
    refine ⟨fun hblank => ?_, fun _ => (Bool.or_eq_false_iff.mp hnext).2⟩
    rw [(not_lexical_of_isBlank hblank).1] at hword
    cases hword
  | quoteOpen =>
    rw [show lexeme = [openMark] from h] at hmem
    rw [List.mem_singleton.mp hmem]
    exact ⟨fun hblank => absurd hblank (by decide), fun hdigit => absurd hdigit (by decide)⟩
  | quoteClose =>
    rw [show lexeme = [closeMark] from h] at hmem
    rw [List.mem_singleton.mp hmem]
    exact ⟨fun hblank => absurd hblank (by decide), fun hdigit => absurd hdigit (by decide)⟩
  | blank =>
    refine ⟨fun _ => h.ends d hd, fun hdigit => ?_⟩
    have hblank := h.all c hmem
    rw [Decimal.not_isBlank_of_isDigit hdigit] at hblank
    cases hblank
  | number =>
    -- the last character is a digit, of one run or of the other
    have hlast : c.isDigit = true ∧ d.isDigit = false := by
      cases h with
      | whole run plain => exact ⟨run.all c hmem, run.ends d hd⟩
      | @withFraction whole digits _ run fraction =>
        rw [List.getLast?_append_of_ne_nil _ (List.cons_ne_nil _ _),
          List.getLast?_cons_of_ne_nil fraction.nonempty] at hc
        exact ⟨fraction.all c (List.mem_of_getLast? hc), fraction.ends d hd⟩
    refine ⟨fun hblank => ?_, fun _ => hlast.2⟩
    rw [Decimal.not_isBlank_of_isDigit hlast.1] at hblank
    cases hblank
  | other name => exact h.elim

theorem IsSkipped.isJoint {c : Char} {next? : Option Char} (h : IsSkipped c next?) :
    IsJoint (before ++ [c]) after := by
  intro d e hd he
  rw [List.getLast?_concat] at hd
  obtain rfl : c = d := Option.some.inj hd
  rw [h.notBlank, h.notDigit]
  exact ⟨fun hblank => absurd hblank (by decide), fun hdigit => absurd hdigit (by decide)⟩

/-- No token takes anything of the end of a text. -/
theorem tokenizes_nil (text : List Char) : Tokenizes text text.length [] where
  from_start _ h := absurd h List.not_mem_nil
  ordered := .nil
  nonempty _ h := absurd h List.not_mem_nil
  slice _ h := absurd h List.not_mem_nil
  kind _ h := absurd h List.not_mem_nil
  marks place c hplace hc := by
    rw [List.getElem?_eq_none hplace] at hc
    cases hc
  skipped place c hplace hc := by
    rw [List.getElem?_eq_none hplace] at hc
    cases hc

theorem getElem?_succ_length {c : Char} :
    (before ++ c :: after)[before.length + 1]? = after.head? := by
  rw [List.getElem?_append_right (Nat.le_add_right _ 1), Nat.add_sub_cancel_left,
    List.getElem?_cons_succ, List.head?_eq_getElem?]

/-- A character that belongs to no token may be left out. -/
theorem Tokenizes.skip {c : Char} (hc : IsSkipped c after.head?)
    (h : Tokenizes (before ++ c :: after) (before.length + 1) tokens) :
    Tokenizes (before ++ c :: after) before.length tokens := by
  have hhere : ∀ d, (before ++ c :: after)[before.length]? = some d → c = d := by
    intro d hd
    rw [List.getElem?_append_right (Nat.le_refl _), Nat.sub_self] at hd
    exact Option.some.inj hd
  refine ⟨fun token htoken => Nat.le_of_succ_le (h.from_start token htoken), h.ordered, h.nonempty,
    h.slice, h.kind, fun place d hplace hd hmark => ?_, fun place d hplace hd hnone => ?_⟩
  · rcases Nat.eq_or_lt_of_le hplace with rfl | hplace
    · obtain rfl := hhere d hd
      exact absurd hmark (not_or.mpr ⟨hc.notOpen, hc.notClose⟩)
    · exact h.marks place d hplace hd hmark
  · rcases Nat.eq_or_lt_of_le hplace with rfl | hplace
    · obtain rfl := hhere d hd
      rw [getElem?_succ_length]
      exact hc
    · exact h.skipped place d hplace hd hnone

/-- A token with a mark in it is the mark. -/
theorem IsTokenIn.eq_singleton (h : IsTokenIn kind before lexeme after) {c : Char} (hc : c ∈ lexeme)
    (hmark : c = openMark ∨ c = closeMark) : lexeme = [c] := by
  -- words, blanks and numbers are made of characters that are no marks
  have hword : isWordChar c = false := by rcases hmark with rfl | rfl <;> decide
  have hblank : Text.isBlank c = false := by rcases hmark with rfl | rfl <;> decide
  have hdigit : c.isDigit = false := by rcases hmark with rfl | rfl <;> decide
  have hpoint : c ≠ '.' := by rcases hmark with rfl | rfl <;> decide
  cases kind with
  | word =>
    rw [isWordChar_of_isWord h.1 hc] at hword
    cases hword
  | quoteOpen =>
    have hlexeme : lexeme = [openMark] := h
    rw [hlexeme] at hc
    rw [hlexeme, List.mem_singleton.mp hc]
  | quoteClose =>
    have hlexeme : lexeme = [closeMark] := h
    rw [hlexeme] at hc
    rw [hlexeme, List.mem_singleton.mp hc]
  | blank =>
    rw [h.all c hc] at hblank
    cases hblank
  | number =>
    cases h with
    | whole run plain =>
      rw [run.all c hc] at hdigit
      cases hdigit
    | withFraction run fraction =>
      rcases List.mem_append.mp hc with hc | hc
      · rw [run.all c hc] at hdigit
        cases hdigit
      · rcases List.mem_cons.mp hc with rfl | hc
        · exact absurd rfl hpoint
        · rw [fraction.all c hc] at hdigit
          cases hdigit
  | other name => exact h.elim

/-- A token that keeps to the laws may be put before the tokens of what stands behind it. -/
theorem Tokenizes.cons (hne : lexeme ≠ []) (hkind : IsTokenIn kind before lexeme after)
    (h : Tokenizes (before ++ (lexeme ++ after)) (before.length + lexeme.length) tokens) :
    Tokenizes (before ++ (lexeme ++ after)) before.length
      (⟨kind, before.length, lexeme.length, String.ofList lexeme⟩ :: tokens) := by
  have hpos : 0 < lexeme.length := List.length_pos_iff.mpr hne
  have hdrop : (before ++ (lexeme ++ after)).drop (before.length + lexeme.length) = after := by
    rw [← List.append_assoc, ← List.length_append, List.drop_left]
  refine ⟨?_, ?_, ?_, ?_, ?_, fun place c hplace hc hmark => ?_, fun place c hplace hc hnone => ?_⟩
  · refine List.forall_mem_cons.mpr ⟨Nat.le_refl _, fun token htoken => ?_⟩
    exact Nat.le_trans (Nat.le_add_right _ _) (h.from_start token htoken)
  · exact List.pairwise_cons.mpr ⟨h.from_start, h.ordered⟩
  · exact List.forall_mem_cons.mpr ⟨hpos, h.nonempty⟩
  · refine List.forall_mem_cons.mpr ⟨⟨?_, ?_⟩, h.slice⟩
    · simp only [List.length_append]
      omega
    · rw [String.toList_ofList, List.drop_left, List.take_left]
  · refine List.forall_mem_cons.mpr ⟨?_, h.kind⟩
    rw [List.take_left, hdrop, String.toList_ofList]
    exact hkind
  · by_cases hbehind : before.length + lexeme.length ≤ place
    · obtain ⟨token, htoken, hstart⟩ := h.marks place c hbehind hc hmark
      exact ⟨token, List.mem_cons_of_mem _ htoken, hstart⟩
    · -- the mark is a character of the token, and so all of it
      have hmem : c ∈ lexeme := by
        rw [List.getElem?_append_right hplace, List.getElem?_append_left (by omega)] at hc
        exact List.mem_of_getElem? hc
      have hlexeme := hkind.eq_singleton hmem hmark
      rw [hlexeme] at hbehind ⊢
      rw [List.length_singleton] at hbehind ⊢
      exact ⟨_, List.mem_cons_self, by show before.length = place; omega, rfl⟩
  · have hbehind : before.length + lexeme.length ≤ place := by
      -- what the first token does not cover stands behind it
      refine Nat.le_of_not_lt fun hinside => ?_
      exact hnone _ List.mem_cons_self ⟨hplace, hinside⟩
    exact h.skipped place c hbehind hc fun token htoken =>
      hnone token (List.mem_cons_of_mem _ htoken)

end

/-- What scanning gives keeps to the laws, from any joint of a text on. -/
theorem tokenizes_tokensFrom (before rest : List Char) (hjoint : IsJoint before rest) :
    Tokenizes (before ++ rest) before.length (tokensFrom before.length rest) := by
  induction rest using scan_induction generalizing before with
  | nil =>
    rw [tokensFrom_nil, List.append_nil]
    exact tokenizes_nil before
  | skip c rest hhead ih =>
    have hskipped := headToken?_eq_none_iff.mp hhead
    have hrest := ih (before ++ [c]) hskipped.isJoint
    rw [List.append_assoc, List.singleton_append, List.length_append, List.length_singleton] at hrest
    rw [tokensFrom_skip hhead]
    exact hrest.skip hskipped
  | token c kind more after hhead ih =>
    obtain ⟨behind, hbehind, hkind⟩ := hjoint.isTokenIn hhead
    obtain rfl : after = behind := List.append_cancel_left hbehind
    have hafter := ih (before ++ c :: more) hkind.isJoint
    rw [List.append_assoc, List.length_append] at hafter
    rw [tokensFrom_cons hhead]
    exact hafter.cons (List.cons_ne_nil _ _) hkind

/-! ## The laws leave no choice -/

section
variable {before after : List Char} {tokens : List Token} {token : Token}

/-- No token fits into the end of a text. -/
theorem Tokenizes.eq_nil (h : Tokenizes before before.length tokens) : tokens = [] := by
  refine List.eq_nil_iff_forall_not_mem.mpr fun token htoken => ?_
  have hstart := h.from_start token htoken
  have hlength := h.nonempty token htoken
  have hend := (h.slice token htoken).1
  omega

/-- A token that starts at a character is the one that is taken off there. -/
theorem Tokenizes.headToken?_of_start {c : Char} {rest : List Char}
    (h : Tokenizes (before ++ c :: rest) before.length tokens) (htoken : token ∈ tokens)
    (hstart : token.start = before.length) :
    ∃ more after, rest = more ++ after ∧ headToken? c rest = some (token.kind, more) ∧
      token = ⟨token.kind, before.length, more.length + 1, String.ofList (c :: more)⟩ := by
  obtain ⟨length, hlength⟩ := Nat.exists_eq_succ_of_ne_zero (Nat.pos_iff_ne_zero.mp
    (h.nonempty token htoken))
  obtain ⟨hend, htext⟩ := h.slice token htoken
  have hkind := h.kind token htoken
  rw [hstart, hlength] at hend hkind
  rw [hstart, hlength, List.drop_left, List.take_succ_cons] at htext
  rw [List.length_append, List.length_cons] at hend
  rw [List.take_left, htext, ← List.drop_drop, List.drop_left, List.drop_succ_cons] at hkind
  have hhead := headToken?_of_isTokenIn hkind
  rw [List.take_append_drop] at hhead
  have hshort : (rest.take length).length = length := by
    rw [List.length_take]
    omega
  refine ⟨rest.take length, rest.drop length, (List.take_append_drop length rest).symm, hhead, ?_⟩
  obtain ⟨kind, start, tokenLength, text⟩ := token
  rw [hshort, ← htext, String.ofList_toList]
  congr 1

/-- Where no token starts, the laws hold of the rest of the text. -/
theorem Tokenizes.of_skip {c : Char} (h : Tokenizes (before ++ c :: after) before.length tokens)
    (hnone : ∀ token ∈ tokens, token.start ≠ before.length) :
    Tokenizes (before ++ c :: after) (before.length + 1) tokens where
  from_start token htoken :=
    Nat.lt_of_le_of_ne (h.from_start token htoken) (hnone token htoken).symm
  ordered := h.ordered
  nonempty := h.nonempty
  slice := h.slice
  kind := h.kind
  marks place c hplace := h.marks place c (Nat.le_of_succ_le hplace)
  skipped place c hplace := h.skipped place c (Nat.le_of_succ_le hplace)

/-- The laws hold of what stands behind the first token. -/
theorem Tokenizes.of_cons {text : List Char} {start : Nat}
    (h : Tokenizes text start (token :: tokens)) :
    Tokenizes text (token.start + token.length) tokens where
  from_start := (List.pairwise_cons.mp h.ordered).1
  ordered := (List.pairwise_cons.mp h.ordered).2
  nonempty := (List.forall_mem_cons.mp h.nonempty).2
  slice := (List.forall_mem_cons.mp h.slice).2
  kind := (List.forall_mem_cons.mp h.kind).2
  marks place c hplace hc hmark := by
    have hstart := h.from_start token List.mem_cons_self
    have hlength := h.nonempty token List.mem_cons_self
    obtain ⟨found, hfound, hplaced⟩ := h.marks place c (by omega) hc hmark
    rcases List.mem_cons.mp hfound with rfl | hfound
    · have hplaced := hplaced.1
      omega
    · exact ⟨found, hfound, hplaced⟩
  skipped place c hplace hc hnone := by
    have hstart := h.from_start token List.mem_cons_self
    refine h.skipped place c (by omega) hc (List.forall_mem_cons.mpr ⟨fun hcovers => ?_, hnone⟩)
    have hbelow := hcovers.2
    omega

/-- A token that starts where the laws begin is the first one. -/
theorem Tokenizes.exists_cons {text : List Char} {start : Nat} (h : Tokenizes text start tokens)
    (htoken : token ∈ tokens) (hstart : token.start = start) : ∃ later, tokens = token :: later := by
  cases tokens with
  | nil => exact absurd htoken List.not_mem_nil
  | cons first later =>
    rcases List.mem_cons.mp htoken with rfl | htoken
    · exact ⟨later, rfl⟩
    · -- a token before it would have to start before the laws do
      have hfirst := h.from_start first List.mem_cons_self
      have hlength := h.nonempty first List.mem_cons_self
      have horder := (List.pairwise_cons.mp h.ordered).1 token htoken
      omega

end

/-- Where no token starts at the first character, it belongs to none. -/
theorem Tokenizes.isSkipped {before after : List Char} {tokens : List Token} {c : Char}
    (h : Tokenizes (before ++ c :: after) before.length tokens)
    (hnone : ∀ token ∈ tokens, token.start ≠ before.length) : IsSkipped c after.head? := by
  have hhere : (before ++ c :: after)[before.length]? = some c := by
    rw [List.getElem?_append_right (Nat.le_refl _), Nat.sub_self, List.getElem?_cons_zero]
  have hskipped := h.skipped before.length c (Nat.le_refl _) hhere fun token htoken hcovers =>
    hnone token htoken (Nat.le_antisymm hcovers.1 (h.from_start token htoken))
  rwa [getElem?_succ_length] at hskipped

/-- Tokens that keep to the laws are the ones that scanning gives. -/
theorem Tokenizes.eq_tokensFrom {before rest : List Char} {tokens : List Token}
    (h : Tokenizes (before ++ rest) before.length tokens) :
    tokens = tokensFrom before.length rest := by
  induction rest using scan_induction generalizing before tokens with
  | nil =>
    rw [List.append_nil] at h
    rw [h.eq_nil, tokensFrom_nil]
  | skip c rest hhead ih =>
    have hnone : ∀ token ∈ tokens, token.start ≠ before.length := by
      intro token htoken hstart
      obtain ⟨more, after, -, hsome, -⟩ := h.headToken?_of_start htoken hstart
      rw [hhead] at hsome
      cases hsome
    have hrest := h.of_skip hnone
    have hlength : before.length + 1 = (before ++ [c]).length := by
      rw [List.length_append, List.length_singleton]
    rw [tokensFrom_skip hhead, hlength]
    rw [hlength, ← List.singleton_append, ← List.append_assoc] at hrest
    exact ih hrest
  | token c kind more after hhead ih =>
    -- a token starts at the character, or it would be one that belongs to none
    have hstarts : ∃ token ∈ tokens, token.start = before.length := by
      refine Classical.byContradiction fun hnot => ?_
      have hskipped := h.isSkipped fun token htoken hstart => hnot ⟨token, htoken, hstart⟩
      rw [headToken?_eq_none_iff.mpr hskipped] at hhead
      cases hhead
    obtain ⟨token, htoken, hstart⟩ := hstarts
    obtain ⟨more', after', hrest, hsome, heq⟩ := h.headToken?_of_start htoken hstart
    rw [hhead] at hsome
    obtain ⟨hkind, rfl⟩ := Prod.mk.inj (Option.some.inj hsome)
    obtain ⟨later, rfl⟩ := h.exists_cons htoken hstart
    have hlater := h.of_cons
    rw [heq, ← List.cons_append, ← List.append_assoc] at hlater
    have hlength : before.length + (more.length + 1) = (before ++ c :: more).length := by
      rw [List.length_append, List.length_cons]
    rw [tokensFrom_cons hhead, hkind, ← heq, Nat.add_assoc, hlength]
    rw [hlength] at hlater
    rw [ih hlater]

/-- The laws determine the tokens of a text, and scanning gives them. -/
theorem tokenizes_iff (text : String) (tokens : List Token) :
    Tokenizes text.toList 0 tokens ↔ tokens = scan text := by
  constructor
  · intro h
    exact @Tokenizes.eq_tokensFrom [] text.toList tokens h
  · rintro rfl
    refine tokenizes_tokensFrom [] text.toList fun c d hc => ?_
    cases hc

end QuoteStack.Token
