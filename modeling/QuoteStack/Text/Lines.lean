/-!
Line ends. In files and on standard input a line may end in a line feed, a carriage return, or
both; programs see line feeds only.
-/

namespace QuoteStack.Text

/-- Writes every line end as a line feed; `read` holds what is done, the latest first. -/
def unifyLineEndsFrom (read : List Char) : List Char → List Char
  | [] => read.reverse
  | '\r' :: '\n' :: rest => unifyLineEndsFrom ('\n' :: read) rest
  | '\r' :: rest => unifyLineEndsFrom ('\n' :: read) rest
  | c :: rest => unifyLineEndsFrom (c :: read) rest

/-- Writes every line end as a line feed. -/
def unifyLineEnds (text : List Char) : List Char :=
  unifyLineEndsFrom [] text

end QuoteStack.Text
