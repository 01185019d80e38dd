import QuoteStack.Proofs.Program.Source

/-!
Items and values. The number tokens of a text are numerals, which stand for numbers, so on a text the
reader of tokens of any source finds the values that the reader of texts finds. The main statement is
`ofTokens_scan`.
-/

namespace QuoteStack

namespace Decimal

/-- A digit is a small letter of itself. -/
theorem toLower_of_isDigit {c : Char} (hc : c.isDigit = true) : c.toLower = c := by
  have hhigh : c.toNat ≤ 57 := (Char.isDigit_iff_toNat.mp hc).2
  refine dif_neg fun hupper => ?_
  have hlow : 65 ≤ c.toNat := UInt32.le_iff_toNat_le.mp hupper.1
  omega

/-- A text with a digit at its head names neither an infinity nor a mark. -/
theorem Extended.readName?_of_isDigit (negative : Bool) {c : Char} (hc : c.isDigit = true)
    (rest : List Char) : Extended.readName? negative ((c :: rest).map Char.toLower) = none := by
  rw [List.map_cons, toLower_of_isDigit hc]
  unfold Extended.readName?
  -- all that is named starts with a letter
  have hletter : ∀ d : Char, d.isDigit = false → c ≠ d := by
    rintro d hd rfl
    exact absurd (hc.symm.trans hd) (by decide)
  split
  · next heq => exact absurd (List.cons.inj heq).1 (hletter _ (by decide))
  · next heq => exact absurd (List.cons.inj heq).1 (hletter _ (by decide))
  · next heq => exact absurd (List.cons.inj heq).1 (hletter _ (by decide))
  · next heq => exact absurd (List.cons.inj heq).1 (hletter _ (by decide))
  · rfl

/-- A numeral stands for a number where infinities and marks may stand too. -/
theorem IsNumeral.extended_ofText?_eq {whole fraction : List Char}
    (h : IsNumeral whole fraction) {text : String} (htext : text.toList = numeral whole fraction) :
    Extended.ofText? text = some (.finite (ofNumeral whole fraction)) := by
  have hchars := h.isNumberChar_signed isExponent_nil false
  have hsign := h.splitSign_signed [] false
  rw [List.append_nil] at hchars hsign
  obtain ⟨c, rest, hcons, hc⟩ := h.exists_cons
  have hname := Extended.readName?_of_isDigit false hc rest
  rw [← hcons] at hname
  have hnumber : ofText? text = some (ofNumeral whole fraction) := by
    rw [ofText?, htext, h.ofChars?_eq]
  have hsplit : Text.splitSign ((Text.trim text.toList).filter (· != '_')) =
      (false, numeral whole fraction) := by
    rw [htext]
    exact (congrArg Text.splitSign (filter_trim_eq_self hchars)).trans hsign
  unfold Extended.ofText?
  simp only [hsplit, hname, hnumber, Option.map_some]

end Decimal

namespace Program

/-! ## Values as items -/

mutual

/-- A value as an item. -/
def Item.ofValue : Value → Item
  | .number n => .number (.finite n)
  | .symbol name => .symbol name
  | .block items => .block (Item.ofValues items)

/-- Values as items. -/
def Item.ofValues : List Value → List Item
  | [] => []
  | v :: rest => Item.ofValue v :: Item.ofValues rest

end

theorem Item.ofValues_eq_map (items : List Value) : ofValues items = items.map ofValue := by
  induction items with
  | nil => rfl
  | cons v rest ih => rw [ofValues, ih, List.map_cons]

/-- A reading in which everything read is replaced. -/
def Reading.map {α β : Type} (f : α → β) (reading : Reading α) : Reading β :=
  ⟨reading.program.map f, reading.rest, reading.warning?⟩

/-! ## Readers of one text -/

section
variable {α β : Type} {build : Builder α} {build' : Builder β} {f : α → β}

/-- What one reader makes of words and blocks is what the other makes, replaced. -/
structure Builder.Commutes (build : Builder α) (build' : Builder β) (f : α → β) : Prop where
  symbol : ∀ name, build'.symbol name = f (build.symbol name)
  block : ∀ items, build'.block (items.map f) = f (build.block items)

theorem closeAll_map (h : build.Commutes build' f) (current : List α) (levels : List (List α)) :
    closeAll build' (current.map f) (levels.map (List.map f)) =
      (closeAll build current levels).map f := by
  induction levels generalizing current with
  | nil => rfl
  | cons outer more ih =>
    rw [List.map_cons, closeAll, closeAll, h.block]
    exact ih (build.block current :: outer)

/-- Readers that make the same of each token read the same. -/
theorem readFrom_map (h : build.Commutes build' f) (tokens : List Token)
    (hnumber : ∀ token ∈ tokens, token.kind = .number →
      build'.number token.text = (build.number token.text).map f)
    (current : List α) (levels : List (List α)) :
    readFrom build' (current.map f) (levels.map (List.map f)) tokens =
      (readFrom build current levels tokens).map (Reading.map f) := by
  induction tokens generalizing current levels with
  | nil =>
    rw [readFrom, readFrom, closeAll_map h, List.isEmpty_map, List.length_map]
    rfl
  | cons token rest ih =>
    obtain ⟨htoken, hrest⟩ := List.forall_mem_cons.mp hnumber
    have ih := ih hrest
    rw [readFrom.eq_def, readFrom.eq_def build]
    dsimp only
    cases hkind : token.kind with
    | number =>
      rw [htoken hkind]
      cases build.number token.text with
      | ok v => exact ih (v :: current) levels
      | error fault => rfl
    | word =>
      dsimp only
      rw [h.symbol]
      exact ih (build.symbol token.text :: current) levels
    | quoteOpen => exact ih [] (current :: levels)
    | quoteClose =>
      cases levels with
      | nil => rfl
      | cons outer more =>
        dsimp only [List.map_cons]
        rw [h.block]
        exact ih (build.block current :: outer) more
    | blank => exact ih current levels
    | other name => exact ih current levels

end

/-- Items are made of words and blocks as values are. -/
theorem Builder.values_commutes_items : Builder.values.Commutes .items Item.ofValue where
  symbol _ := rfl
  block items := congrArg Item.block (Item.ofValues_eq_map items).symm

/-- A number token of a text is made the same item as value. -/
theorem Builder.items_number_of_isNumeral {text : String} {whole fraction : List Char}
    (hnumeral : Decimal.IsNumeral whole fraction)
    (htext : text.toList = Decimal.numeral whole fraction) :
    Builder.items.number text = (Builder.values.number text).map Item.ofValue := by
  rw [values_number (isLiteral_of_isNumeral hnumeral htext).1]
  simp only [items, hnumeral.extended_ofText?_eq htext]
  cases store (.ofNumeral whole fraction) <;> rfl

/-- The tokens of a text are read as the text is: the items are its values, the same tokens are left
unread, and the warning or the fault is the same. -/
theorem ofTokens_scan (source : String) :
    ofTokens (Token.scan source) = (ofSource source).map (Reading.map Item.ofValue) := by
  refine readFrom_map Builder.values_commutes_items (Token.scan source) ?_ [] []
  intro token htoken hkind
  have hlexeme := (Token.isLexeme_of_mem htoken).1
  rw [hkind] at hlexeme
  obtain ⟨whole, fraction, hnumeral, htext⟩ := hlexeme
  exact Builder.items_number_of_isNumeral hnumeral htext

end Program

end QuoteStack
