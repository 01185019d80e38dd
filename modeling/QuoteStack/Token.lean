/-!
Tokens: the pieces of a program text that carry meaning, with their places.
-/

namespace QuoteStack

/-- What a token is. -/
inductive TokenKind where
  | word
  | quoteOpen
  | quoteClose
  | blank
  | number
  /-- A kind of some other source of tokens; programs ignore it. -/
  | other (name : String)
  deriving DecidableEq

/-- A piece of a text: its kind, its characters, and where it stands, counted in characters. -/
structure Token where
  kind : TokenKind
  start : Nat
  length : Nat
  text : String
  deriving DecidableEq

end QuoteStack
