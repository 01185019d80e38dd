import QuoteStack.Proofs.Decimal.Notation
import QuoteStack.Proofs.Token.Lexeme
import QuoteStack.Value.Json

/-!
What the texts of values tell. The text that is made from pieces is the one that recursion over the
value gives. In it the brackets and separators of blocks stand apart from what numbers and symbols
are written with, so a text can be taken apart in one way only, and values whose symbols are words
are determined by their text and by their lines. The main statements are `layout_injective` and
`lines_injective`, which hold of plain text and of JSON by `isFaithful_plain` and
`isFaithful_jsonStyle`.
-/

namespace QuoteStack

/-- All symbols in a value are words. -/
inductive Value.HasWords : Value → Prop where
  | number (n : Decimal) : HasWords (.number n)
  | symbol {name : String} (word : Token.IsWord name.toList) : HasWords (.symbol name)
  | block {items : List Value} (items_words : ∀ v ∈ items, HasWords v) : HasWords (.block items)

namespace Value

theorem HasWords.items {items : List Value} (h : (Value.block items).HasWords) :
    ∀ v ∈ items, v.HasWords := by
  cases h with
  | block hitems => exact hitems

/-! ## The text of a value by recursion -/

mutual

/-- The text of a value: that of its style, or those of its items in brackets. -/
def spell (style : Style) : Value → List Char
  | .number n => (style.number n).toList
  | .symbol name => (style.symbol name).toList
  | .block items => '[' :: (spellAll style items ++ [']'])

/-- The texts of values with separators between them. -/
def spellAll (style : Style) : List Value → List Char
  | [] => []
  | v :: rest => spell style v ++ spellRest style rest

/-- The texts of values with a separator before each. -/
def spellRest (style : Style) : List Value → List Char
  | [] => []
  | v :: rest => ", ".toList ++ (spell style v ++ spellRest style rest)

end

/-- The text of a piece. -/
def Piece.spell (style : Style) : Piece → List Char
  | .mark text => text.toList
  | .value v => v.spell style

theorem flatMap_piecesBefore (style : Style) (after : List Piece) (items : List Value) :
    (piecesBefore after items).flatMap (Piece.spell style) =
      spellAll style items ++ after.flatMap (Piece.spell style) := by
  fun_induction piecesBefore after items with
  | case1 => rfl
  | case2 v =>
    rw [List.flatMap_cons, spellAll, spellRest, List.append_nil]
    rfl
  | case3 v rest hrest ih =>
    obtain ⟨next, others, rfl⟩ := List.exists_cons_of_ne_nil hrest
    rw [List.flatMap_cons, List.flatMap_cons, ih, spellAll, spellAll, spellRest]
    simp only [Piece.spell, List.append_assoc]

/-- The pending pieces are written one behind the other. -/
theorem toList_writePieces (style : Style) (written : String) (pending : List Piece) :
    (writePieces style written pending).toList =
      written.toList ++ pending.flatMap (Piece.spell style) := by
  fun_induction writePieces style written pending with
  | case1 written => rw [List.flatMap_nil, List.append_nil]
  | case2 written text rest ih =>
    rw [ih, String.toList_append, List.append_assoc]
    rfl
  | case3 written n rest ih =>
    rw [ih, String.toList_append, List.append_assoc]
    rfl
  | case4 written name rest ih =>
    rw [ih, String.toList_append, List.append_assoc]
    rfl
  | case5 written items rest ih =>
    rw [ih, String.toList_append, flatMap_piecesBefore, List.append_assoc, List.flatMap_cons,
      List.flatMap_cons]
    simp only [Piece.spell, spell, List.cons_append, List.append_assoc]
    rfl

/-- The text of a value is the one that recursion gives. -/
theorem toList_layout (style : Style) (v : Value) : (v.layout style).toList = v.spell style := by
  rw [layout, toList_writePieces, List.flatMap_singleton]
  rfl

/-! ## Styles that tell values apart -/

/-- The characters that values are taken apart at. -/
def isSeparator (c : Char) : Bool :=
  c == '[' || c == ']' || c == ',' || c == '\n'

/-- A text without separators. -/
structure IsLeafText (text : List Char) : Prop where
  nonempty : text ≠ []
  plain : ∀ c ∈ text, isSeparator c = false

/-- A style in which numbers and words are written without separators, and different ones
differently. -/
structure Style.IsFaithful (style : Style) : Prop where
  number_text : ∀ n, IsLeafText (style.number n).toList
  symbol_text : ∀ name : String, Token.IsWord name.toList → IsLeafText (style.symbol name).toList
  number_injective : ∀ x y, style.number x = style.number y → x = y
  symbol_injective : ∀ x y : String, Token.IsWord x.toList → Token.IsWord y.toList →
    style.symbol x = style.symbol y → x = y
  disjoint : ∀ n (name : String), Token.IsWord name.toList → style.number n ≠ style.symbol name

/-- What may stand behind the text of a value: nothing, or a separator. -/
def IsEnd (after : List Char) : Prop :=
  ∀ c, after.head? = some c → isSeparator c = true

section
variable {text text' after after' : List Char}

/-- A text without separators ends where a separator stands behind it. -/
theorem IsLeafText.append_injective (h : IsLeafText text) (h' : IsLeafText text')
    (hafter : IsEnd after) (hafter' : IsEnd after') (heq : text ++ after = text' ++ after') :
    text = text' ∧ after = after' := by
  have htake : ∀ t a : List Char, IsLeafText t → IsEnd a →
      (t ++ a).takeWhile (fun c => !isSeparator c) = t := by
    intro t a ht ha
    refine Token.takeWhile_append_eq (fun c hc => ?_) fun c hc => ?_
    · rw [ht.plain c hc]
      rfl
    · rw [ha c hc]
      rfl
  have htext : text = text' := by
    rw [← htake text after h hafter, heq, htake text' after' h' hafter']
  subst htext
  exact ⟨rfl, List.append_cancel_left heq⟩

/-- A text without separators starts with no separator. -/
theorem IsLeafText.ne_cons (h : IsLeafText text) {c : Char} (hc : isSeparator c = true)
    (rest : List Char) : text ++ after ≠ c :: rest := by
  intro heq
  obtain ⟨d, others, rfl⟩ := List.exists_cons_of_ne_nil h.nonempty
  obtain ⟨rfl, -⟩ := List.cons.inj heq
  rw [h.plain d List.mem_cons_self] at hc
  cases hc

end

theorem isEnd_cons {c : Char} (hc : isSeparator c = true) (rest : List Char) :
    IsEnd (c :: rest) := by
  intro d hd
  obtain rfl : c = d := Option.some.inj hd
  exact hc

section
variable {style : Style}

/-- Behind an item of a block stands a separator or the bracket. -/
theorem isEnd_spellRest (items : List Value) (after : List Char) :
    IsEnd (spellRest style items ++ ']' :: after) := by
  cases items with
  | nil => exact isEnd_cons (by decide) _
  | cons v rest =>
    rw [spellRest]
    exact isEnd_cons (show isSeparator ',' = true by decide) _

/-- No value is written with a closing bracket first. -/
theorem spell_append_ne (hstyle : style.IsFaithful) {v : Value} (hv : v.HasWords)
    (after rest : List Char) : v.spell style ++ after ≠ ']' :: rest := by
  cases hv with
  | number n => exact (hstyle.number_text n).ne_cons (by decide) rest
  | symbol hword => exact (hstyle.symbol_text _ hword).ne_cons (by decide) rest
  | block _ =>
    intro heq
    obtain ⟨hc, -⟩ := List.cons.inj heq
    exact absurd hc (by decide)

/-- The text of the value tells the value and where the text ends, whatever stands behind it. -/
def IsTold (style : Style) (v : Value) : Prop :=
  ∀ (w : Value) (after after' : List Char), w.HasWords → IsEnd after → IsEnd after' →
    v.spell style ++ after = w.spell style ++ after' → v = w ∧ after = after'

/-- The texts of the further items of a block tell them and where they end. -/
theorem spellRest_injective {items items' : List Value} (hitems : ∀ v ∈ items, IsTold style v)
    (hitems' : ∀ v ∈ items', v.HasWords) {after after' : List Char}
    (heq : spellRest style items ++ ']' :: after = spellRest style items' ++ ']' :: after') :
    items = items' ∧ after = after' := by
  induction items generalizing items' with
  | nil =>
    cases items' with
    | nil => exact ⟨rfl, (List.cons.inj heq).2⟩
    | cons w rest' =>
      obtain ⟨hc, -⟩ := List.cons.inj heq
      exact absurd hc (by decide)
  | cons v rest ih =>
    obtain ⟨hv, hrest⟩ := List.forall_mem_cons.mp hitems
    cases items' with
    | nil =>
      obtain ⟨hc, -⟩ := List.cons.inj heq
      exact absurd hc (by decide)
    | cons w rest' =>
      obtain ⟨hw, hrest'⟩ := List.forall_mem_cons.mp hitems'
      rw [spellRest, spellRest, List.append_assoc, List.append_assoc, List.append_assoc,
        List.append_assoc] at heq
      obtain ⟨rfl, hbehind⟩ := hv w _ _ hw (isEnd_spellRest rest after)
        (isEnd_spellRest rest' after') (List.append_cancel_left heq)
      obtain ⟨rfl, hafter⟩ := ih hrest hrest' hbehind
      exact ⟨rfl, hafter⟩

/-- The texts of the items of a block tell them and where they end. -/
theorem spellAll_injective (hstyle : style.IsFaithful) {items items' : List Value}
    (hitems : ∀ v ∈ items, v.HasWords ∧ IsTold style v) (hitems' : ∀ v ∈ items', v.HasWords)
    {after after' : List Char}
    (heq : spellAll style items ++ ']' :: after = spellAll style items' ++ ']' :: after') :
    items = items' ∧ after = after' := by
  cases items with
  | nil =>
    cases items' with
    | nil => exact ⟨rfl, (List.cons.inj heq).2⟩
    | cons w rest' =>
      rw [spellAll, spellAll, List.append_assoc] at heq
      exact absurd heq.symm (spell_append_ne hstyle (hitems' w List.mem_cons_self) _ _)
  | cons v rest =>
    obtain ⟨⟨hwords, hv⟩, hrest⟩ := List.forall_mem_cons.mp hitems
    cases items' with
    | nil =>
      rw [spellAll, spellAll, List.append_assoc] at heq
      exact absurd heq (spell_append_ne hstyle hwords _ _)
    | cons w rest' =>
      obtain ⟨hw, hrest'⟩ := List.forall_mem_cons.mp hitems'
      rw [spellAll, spellAll, List.append_assoc, List.append_assoc] at heq
      obtain ⟨rfl, hbehind⟩ := hv w _ _ hw (isEnd_spellRest rest after)
        (isEnd_spellRest rest' after') heq
      obtain ⟨rfl, hafter⟩ := spellRest_injective (fun v hv => (hrest v hv).2) hrest' hbehind
      exact ⟨rfl, hafter⟩

/-- In a faithful style, the text of a value of words tells the value, by induction on it. -/
theorem HasWords.isTold (hstyle : style.IsFaithful) {v : Value} (hv : v.HasWords) :
    IsTold style v := by
  induction hv with
  | number x =>
    intro w after after' hw hafter hafter' heq
    -- its first character already tells a block from a number and from a word
    cases hw with
    | number y =>
      obtain ⟨htext, hrest⟩ := (hstyle.number_text x).append_injective (hstyle.number_text y) hafter
        hafter' heq
      exact ⟨congrArg _ (hstyle.number_injective x y (String.toList_injective htext)), hrest⟩
    | symbol hword =>
      obtain ⟨htext, -⟩ := (hstyle.number_text x).append_injective (hstyle.symbol_text _ hword)
        hafter hafter' heq
      exact absurd (String.toList_injective htext) (hstyle.disjoint x _ hword)
    | block _ => exact absurd heq ((hstyle.number_text x).ne_cons (by decide) _)
  | symbol hword =>
    intro w after after' hw hafter hafter' heq
    cases hw with
    | number y =>
      obtain ⟨htext, -⟩ := (hstyle.symbol_text _ hword).append_injective (hstyle.number_text y)
        hafter hafter' heq
      exact absurd (String.toList_injective htext).symm (hstyle.disjoint y _ hword)
    | symbol hword' =>
      obtain ⟨htext, hrest⟩ := (hstyle.symbol_text _ hword).append_injective
        (hstyle.symbol_text _ hword') hafter hafter' heq
      exact ⟨congrArg _ (hstyle.symbol_injective _ _ hword hword' (String.toList_injective htext)),
        hrest⟩
    | block _ => exact absurd heq ((hstyle.symbol_text _ hword).ne_cons (by decide) _)
  | block hwords ih =>
    intro w after after' hw hafter hafter' heq
    cases hw with
    | number y => exact absurd heq.symm ((hstyle.number_text y).ne_cons (by decide) _)
    | symbol hword => exact absurd heq.symm ((hstyle.symbol_text _ hword).ne_cons (by decide) _)
    | block hwords' =>
      rw [spell, spell, List.cons_append, List.cons_append, List.append_assoc, List.append_assoc]
        at heq
      obtain ⟨rfl, hrest⟩ := spellAll_injective hstyle (fun v hv => ⟨hwords v hv, ih v hv⟩) hwords'
        (List.cons.inj heq).2
      exact ⟨rfl, hrest⟩

/-- In a faithful style, values of words with one text are one value. -/
theorem layout_injective (hstyle : style.IsFaithful) {v w : Value} (hv : v.HasWords)
    (hw : w.HasWords) (h : v.layout style = w.layout style) : v = w := by
  have htext : v.spell style ++ [] = w.spell style ++ [] := by
    rw [← toList_layout, ← toList_layout, h]
  have hend : IsEnd [] := fun c hc => nomatch hc
  exact (hv.isTold hstyle w [] [] hw hend hend htext).1

/-- In a faithful style, stacks of values of words with the same lines are the same. -/
theorem lines_injective (hstyle : style.IsFaithful) {values values' : List Value}
    (hvalues : ∀ v ∈ values, v.HasWords) (hvalues' : ∀ v ∈ values', v.HasWords)
    (h : String.join (values.map fun v => v.layout style ++ "\n") =
      String.join (values'.map fun v => v.layout style ++ "\n")) : values = values' := by
  replace h := congrArg String.toList h
  rw [String.toList_join, String.toList_join] at h
  induction values generalizing values' with
  | nil =>
    cases values' with
    | nil => rfl
    | cons w rest' => simp at h
  | cons v rest ih =>
    cases values' with
    | nil => simp at h
    | cons w rest' =>
      obtain ⟨hv, hrest⟩ := List.forall_mem_cons.mp hvalues
      obtain ⟨hw, hrest'⟩ := List.forall_mem_cons.mp hvalues'
      simp only [List.map_cons, List.flatMap_cons, String.toList_append, toList_layout,
        List.append_assoc] at h
      -- a line feed stands behind each value
      obtain ⟨rfl, hbehind⟩ := hv.isTold hstyle w _ _ hw (isEnd_cons (by decide) _)
        (isEnd_cons (by decide) _) h
      rw [ih hrest hrest' (List.cons.inj hbehind).2]

/-- Between items there is no line feed. -/
theorem not_mem_spellAll {items : List Value} (hitems : ∀ v ∈ items, '\n' ∉ v.spell style) :
    '\n' ∉ spellAll style items := by
  have hrest : ∀ rest : List Value, (∀ v ∈ rest, '\n' ∉ v.spell style) →
      '\n' ∉ spellRest style rest := by
    intro rest hrest
    induction rest with
    | nil => exact List.not_mem_nil
    | cons v rest ih =>
      obtain ⟨hv, hothers⟩ := List.forall_mem_cons.mp hrest
      rw [spellRest, List.mem_append, List.mem_append, not_or, not_or]
      exact ⟨by decide, hv, ih hothers⟩
  cases items with
  | nil => exact List.not_mem_nil
  | cons v rest =>
    obtain ⟨hv, hothers⟩ := List.forall_mem_cons.mp hitems
    rw [spellAll, List.mem_append, not_or]
    exact ⟨hv, hrest rest hothers⟩

/-- In a faithful style, a value of words is written on one line. -/
theorem not_mem_layout (hstyle : style.IsFaithful) {v : Value} (hv : v.HasWords) :
    '\n' ∉ (v.layout style).toList := by
  rw [toList_layout]
  have hleaf : ∀ text, IsLeafText text → '\n' ∉ text := by
    intro text htext hmem
    exact absurd (htext.plain '\n' hmem) (by decide)
  induction hv with
  | number n => exact hleaf _ (hstyle.number_text n)
  | symbol hword => exact hleaf _ (hstyle.symbol_text _ hword)
  | block _ ih =>
    rw [spell, List.mem_cons, List.mem_append, not_or, not_or]
    exact ⟨by decide, not_mem_spellAll ih, by decide⟩

end

/-! ## Plain text and JSON -/

/-- A character that separates nothing and stands for itself in a JSON string. -/
def IsTame (c : Char) : Prop :=
  isSeparator c = false ∧ jsonEscaped c = [c]

instance (c : Char) : Decidable (IsTame c) :=
  inferInstanceAs (Decidable (_ ∧ _))

theorem isTame_of_isDigit {c : Char} (h : c.isDigit = true) : IsTame c := by
  have hhigh : c.toNat ≤ 57 := (Char.isDigit_iff_toNat.mp h).2
  have hall : ∀ n < 58, (Char.ofNat n).isDigit = true → IsTame (Char.ofNat n) := by decide
  have hchar := hall c.toNat (by omega)
  rw [Char.ofNat_toNat] at hchar
  exact hchar h

theorem isTame_of_isNumberChar {c : Char} (h : Decimal.isNumberChar c = true) : IsTame c := by
  simp only [Decimal.isNumberChar, Bool.or_eq_true, beq_iff_eq] at h
  rcases h with (((h | rfl) | rfl) | rfl) | rfl
  · exact isTame_of_isDigit h
  · decide
  · decide
  · decide
  · decide

/-- The characters that a word may start with are characters of ASCII. -/
theorem toNat_lt_of_isSymbolChar {c : Char} (h : Token.isSymbolChar c = true) : c.toNat < 128 := by
  unfold Token.isSymbolChar at h
  rcases Bool.or_eq_true_iff.mp h with halpha | hsign
  · unfold Char.isAlpha Char.isUpper Char.isLower at halpha
    simp only [Bool.or_eq_true, Bool.and_eq_true, decide_eq_true_eq] at halpha
    rcases halpha with ⟨-, hhigh⟩ | ⟨-, hhigh⟩
    · exact Nat.lt_of_le_of_lt (UInt32.le_iff_toNat_le.mp hhigh) (by decide)
    · exact Nat.lt_of_le_of_lt (UInt32.le_iff_toNat_le.mp hhigh) (by decide)
  · have hall : ("_*$#@!%^&".toList.all fun d => decide (d.toNat < 128)) = true := by decide
    exact of_decide_eq_true (List.all_eq_true.mp hall c (List.contains_iff_mem.mp hsign))

theorem isTame_of_isSymbolChar {c : Char} (h : Token.isSymbolChar c = true) : IsTame c := by
  have hall : ∀ n < 128, Token.isSymbolChar (Char.ofNat n) = true → IsTame (Char.ofNat n) := by
    decide
  have hchar := hall c.toNat (toNat_lt_of_isSymbolChar h)
  rw [Char.ofNat_toNat] at hchar
  exact hchar h

theorem isTame_of_isWord {text : List Char} (h : Token.IsWord text) {c : Char} (hc : c ∈ text) :
    IsTame c := by
  have hword := Token.isWordChar_of_isWord h hc
  unfold Token.isWordChar at hword
  rcases Bool.or_eq_true_iff.mp hword with hsymbol | hdigit
  · exact isTame_of_isSymbolChar hsymbol
  · exact isTame_of_isDigit hdigit

theorem isTame_of_mem_toText {n : Decimal} {c : Char} (hc : c ∈ n.toText.toList) : IsTame c :=
  isTame_of_isNumberChar (Decimal.isNumberChar_of_mem_toText hc)

/-- No number is written like a word. -/
theorem toText_ne_of_isWord (n : Decimal) {name : String} (hword : Token.IsWord name.toList) :
    n.toText ≠ name := by
  rintro rfl
  obtain ⟨c, rest, htext, hc⟩ := n.exists_head_toText
  rw [htext] at hword
  have hfirst : Token.isSymbolChar c = true := by
    match rest, hword with
    | second :: rest, hword => exact hword.1
  rcases hc with hdigit | rfl
  · rw [Token.not_isSymbolChar_of_isDigit hdigit] at hfirst
    cases hfirst
  · exact absurd hfirst (by decide)

theorem ne_nil_of_isWord {text : List Char} (h : Token.IsWord text) : text ≠ [] := by
  rintro rfl
  exact h

theorem toText_ne_nil (n : Decimal) : n.toText.toList ≠ [] := by
  obtain ⟨c, rest, htext, -⟩ := n.exists_head_toText
  rw [htext]
  exact List.cons_ne_nil c rest

/-- Plain text tells values of words apart. -/
theorem isFaithful_plain : plain.IsFaithful where
  number_text n := ⟨toText_ne_nil n, fun _ hc => (isTame_of_mem_toText hc).1⟩
  symbol_text _ hword := ⟨ne_nil_of_isWord hword, fun _ hc => (isTame_of_isWord hword hc).1⟩
  number_injective _ _ h := Decimal.toText_injective h
  symbol_injective _ _ _ _ h := h
  disjoint n _ hword := toText_ne_of_isWord n hword

/-- A text that needs no escapes is a JSON string between quotation marks. -/
theorem toList_jsonString {text : String} (h : ∀ c ∈ text.toList, IsTame c) :
    (jsonString text).toList = '"' :: (text.toList ++ ['"']) := by
  have hescaped : text.toList.flatMap jsonEscaped = text.toList := by
    generalize text.toList = chars at h
    induction chars with
    | nil => rfl
    | cons c rest ih =>
      obtain ⟨hc, hrest⟩ := List.forall_mem_cons.mp h
      rw [List.flatMap_cons, hc.2, ih hrest]
      rfl
  rw [jsonString, String.toList_ofList, hescaped]

theorem isLeafText_jsonString {text : String} (h : ∀ c ∈ text.toList, IsTame c) :
    IsLeafText (jsonString text).toList := by
  rw [toList_jsonString h]
  refine ⟨List.cons_ne_nil _ _, fun c hc => ?_⟩
  rcases List.mem_cons.mp hc with rfl | hc
  · decide
  · rcases List.mem_append.mp hc with hc | hc
    · exact (h c hc).1
    · obtain rfl := List.mem_singleton.mp hc
      decide

theorem jsonString_injective {x y : String} (hx : ∀ c ∈ x.toList, IsTame c)
    (hy : ∀ c ∈ y.toList, IsTame c) (h : jsonString x = jsonString y) : x = y := by
  have htext := congrArg String.toList h
  rw [toList_jsonString hx, toList_jsonString hy] at htext
  exact String.toList_injective (List.append_cancel_right (List.cons.inj htext).2)

/-- JSON tells values of words apart. -/
theorem isFaithful_jsonStyle : jsonStyle.IsFaithful where
  number_text _ := isLeafText_jsonString fun _ hc => isTame_of_mem_toText hc
  symbol_text _ hword := isLeafText_jsonString fun _ hc => isTame_of_isWord hword hc
  number_injective _ _ h := Decimal.toText_injective
    (jsonString_injective (fun _ hc => isTame_of_mem_toText hc)
      (fun _ hc => isTame_of_mem_toText hc) h)
  symbol_injective _ _ hx hy h :=
    jsonString_injective (fun _ hc => isTame_of_isWord hx hc) (fun _ hc => isTame_of_isWord hy hc) h
  disjoint n _ hword h := toText_ne_of_isWord n hword
    (jsonString_injective (fun _ hc => isTame_of_mem_toText hc)
      (fun _ hc => isTame_of_isWord hword hc) h)

end Value

end QuoteStack
