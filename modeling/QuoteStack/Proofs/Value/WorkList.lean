import Mathlib.Logic.Function.Iterate
import QuoteStack.Proofs.Value.Layout

/-!
The loop that writes values. A turn takes up one pending piece, after which the pending pieces weigh
less and the loop still has the same text to give. So it ends after no more turns than the value
weighs, however deep and wide the value is, and the text is the one that recursion over the value
gives. The main statement is `render_by_turns`.
-/

namespace QuoteStack.Value

/-! ## Turns of the loop -/

/-- Where the loop stands: the text that is written, and the pieces that are pending. -/
structure Writing where
  written : String
  pending : List Piece

namespace Writing

variable {style : Style} {w : Writing}

/-- One turn: takes up the first of the pending pieces, if there is one. -/
def turn (style : Style) (w : Writing) : Writing :=
  match w.pending with
  | [] => w
  | .mark text :: rest => ⟨w.written ++ text, rest⟩
  | .value (.number n) :: rest => ⟨w.written ++ style.number n, rest⟩
  | .value (.symbol name) :: rest => ⟨w.written ++ style.symbol name, rest⟩
  | .value (.block items) :: rest => ⟨w.written ++ "[", piecesBefore (.mark "]" :: rest) items⟩

/-- The text that the loop gives from here on. -/
def result (style : Style) (w : Writing) : String :=
  writePieces style w.written w.pending

/-- A turn does not change what the loop gives. -/
theorem result_turn (style : Style) (w : Writing) :
    (w.turn style).result style = w.result style := by
  obtain ⟨written, pending⟩ := w
  unfold result turn
  rcases pending with _ | ⟨text | v, rest⟩
  · rfl
  · simp only [writePieces]
  · cases v <;> simp only [writePieces]

/-- A turn makes the pending pieces lighter: what a block puts in its place weighs less than the
block. -/
theorem weightAll_turn_lt (style : Style) (h : w.pending ≠ []) :
    Piece.weightAll (w.turn style).pending < Piece.weightAll w.pending := by
  obtain ⟨written, pending⟩ := w
  unfold turn
  rcases pending with _ | ⟨text | v, rest⟩
  · exact absurd rfl h
  · simp only [Piece.weightAll]
    omega
  · cases v with
    | number n => simp only [Piece.weightAll, weight]; omega
    | symbol name => simp only [Piece.weightAll, weight]; omega
    | block items =>
      have hle := weightAll_piecesBefore (.mark "]" :: rest) items
      simp only [Piece.weightAll, weight] at hle ⊢
      omega

/-- As many turns as the pending pieces weigh are enough: then nothing is pending, and the text is
written. -/
theorem iterate_turn {turns : Nat} (h : Piece.weightAll w.pending ≤ turns) :
    (turn style)^[turns] w = ⟨w.result style, []⟩ := by
  induction turns generalizing w with
  | zero =>
    by_cases hpending : w.pending = []
    · obtain ⟨written, pending⟩ := w
      obtain rfl : pending = [] := hpending
      simp only [Function.iterate_zero, id_eq, result, writePieces]
    · have hlt := weightAll_turn_lt style hpending
      omega
  | succ turns ih =>
    rw [Function.iterate_succ_apply, ← result_turn style w]
    apply ih
    by_cases hpending : w.pending = []
    · -- where nothing is pending, a turn does nothing
      obtain ⟨written, pending⟩ := w
      obtain rfl : pending = [] := hpending
      exact Nat.zero_le _
    · have hlt := weightAll_turn_lt style hpending
      omega

end Writing

/-- Where the loop stands before its first turn. -/
def begun (v : Value) : Writing :=
  ⟨"", [.value v]⟩

/-! ## The text by recursion -/

section
variable {style : Style}

theorem layout_number (n : Decimal) : (number n).layout style = style.number n := by
  apply String.toList_injective
  rw [toList_layout, spell]

theorem layout_symbol (name : String) : (symbol name).layout style = style.symbol name := by
  apply String.toList_injective
  rw [toList_layout, spell]

theorem spellAll_eq_intercalate (items : List Value) :
    spellAll style items = ", ".toList.intercalate (items.map (spell style)) := by
  induction items with
  | nil => rfl
  | cons v rest ih =>
    cases rest with
    | nil => simp [spellAll, spellRest]
    | cons next others =>
      rw [List.map_cons, List.map_cons, List.intercalate_cons_cons, ← List.map_cons, ← ih]
      simp only [spellAll, spellRest, List.append_assoc]

/-- A block is written as its items between brackets, in stored order and with separators. -/
theorem layout_block (items : List Value) :
    (block items).layout style = "[" ++ ", ".intercalate (items.map (layout style)) ++ "]" := by
  apply String.toList_injective
  have hitems : (items.map (layout style)).map String.toList = items.map (spell style) := by
    rw [List.map_map]
    exact List.map_congr_left fun v _ => toList_layout style v
  rw [toList_layout, spell, String.toList_append, String.toList_append, String.toList_intercalate,
    hitems, spellAll_eq_intercalate]
  rfl

end

/-- The loop that writes a value ends: after as many turns as the value weighs nothing is pending,
and the text is written. This text is the one that recursion over the value gives, and no other
function on values keeps to the recursion: a number is written in decimal notation, a symbol as it
is, and a block as its items in stored order, with separators between them and brackets around. -/
theorem render_by_turns :
    (∀ v : Value, (Writing.turn plain)^[v.weight] v.begun = ⟨v.render, []⟩) ∧
    ∀ text : Value → String, (∀ v, text v = v.render) ↔
      (∀ n, text (number n) = n.toText) ∧
      (∀ name, text (symbol name) = name) ∧
      ∀ items, text (block items) = "[" ++ ", ".intercalate (items.map text) ++ "]" := by
  refine ⟨fun v => Writing.iterate_turn (Nat.le_refl _), fun text => ⟨fun h => ?_, ?_⟩⟩
  · obtain rfl : text = render := funext h
    exact ⟨layout_number, layout_symbol, layout_block⟩
  · rintro ⟨hnumber, hsymbol, hblock⟩ v
    induction v with
    | number n => rw [hnumber, render, layout_number]; rfl
    | symbol name => rw [hsymbol, render, layout_symbol]; rfl
    | block items ih =>
      have hitems : items.map text = items.map (layout plain) := List.map_congr_left ih
      rw [hblock, hitems, render, layout_block]

/-- A block in a block is written within nine turns. -/
example :
    (Writing.turn plain)^[9] (block [symbol "ab", block [symbol "cd"]]).begun =
      ⟨"[ab, [cd]]", []⟩ := by
  rfl

end QuoteStack.Value
