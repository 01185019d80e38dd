import QuoteStack.Decimal.Notation
import QuoteStack.Value

/-!
Values as text. Blocks are written in brackets with their items in stored order; numbers and
symbols are written plainly, or as strings for readers of JSON. The text is made from a list of
pieces still to be written, so nesting is limited by memory only.
-/

namespace QuoteStack.Value

/-- How the values that are no blocks are written. -/
structure Style where
  number : Decimal → String
  symbol : String → String

/-- A piece of text still to be written. -/
inductive Piece where
  | mark (text : String)
  | value (v : Value)

/-- A size of the pieces that gets less whenever one of them is taken up. -/
def Piece.weightAll : List Piece → Nat
  | [] => 0
  | .mark _ :: rest => 1 + weightAll rest
  | .value v :: rest => v.weight + weightAll rest

/-- The pieces of the items of a block, with separators between them, before `after`. -/
def piecesBefore (after : List Piece) : List Value → List Piece
  | [] => after
  | [v] => .value v :: after
  | v :: rest => .value v :: .mark ", " :: piecesBefore after rest

theorem weightAll_piecesBefore (after : List Piece) (items : List Value) :
    Piece.weightAll (piecesBefore after items) ≤ weightAll items + Piece.weightAll after := by
  fun_induction piecesBefore after items with
  | case1 => simp [weightAll]
  | case2 v => simp only [Piece.weightAll, weightAll]; omega
  | case3 v rest _ ih => simp only [Piece.weightAll, weightAll]; omega

/-- Writes the pending pieces behind the text written so far. -/
def writePieces (style : Style) (written : String) (pending : List Piece) : String :=
  match pending with
  | [] => written
  | .mark text :: rest => writePieces style (written ++ text) rest
  | .value (.number n) :: rest => writePieces style (written ++ style.number n) rest
  | .value (.symbol name) :: rest => writePieces style (written ++ style.symbol name) rest
  | .value (.block items) :: rest =>
    writePieces style (written ++ "[") (piecesBefore (.mark "]" :: rest) items)
termination_by Piece.weightAll pending
decreasing_by
  all_goals simp only [Piece.weightAll, weight]
  all_goals try omega
  have := weightAll_piecesBefore (.mark "]" :: rest) items
  simp only [Piece.weightAll] at this
  omega

/-- The text of a value in a style. -/
def layout (style : Style) (v : Value) : String :=
  writePieces style "" [.value v]

/-- Numbers in decimal notation and symbols as they are. -/
def plain : Style :=
  ⟨Decimal.toText, id⟩

/-- The text of a value. -/
def render (v : Value) : String :=
  v.layout plain

/-- The text of the top of a stack, which may be empty. -/
def renderTop : Option Value → String
  | some v => v.render
  | none => "<empty>"

end QuoteStack.Value
