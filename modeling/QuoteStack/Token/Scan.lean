import QuoteStack.Text.Blank
import QuoteStack.Token

/-!
Splitting a program text into tokens. At each place the longest token that can start there is
taken; a character at which no token starts is skipped. A word has at least two characters, so a
symbol character that stands alone is skipped too.
-/

namespace QuoteStack.Token

/-- The opening mark of a block. -/
def openMark : Char := '\x7b'

/-- The closing mark of a block. -/
def closeMark : Char := '\x7d'

/-- The characters that a word may start with: Latin letters and some signs. -/
def isSymbolChar (c : Char) : Bool :=
  c.isAlpha || "_*$#@!%^&".toList.contains c

/-- The characters that a word may go on with. -/
def isWordChar (c : Char) : Bool :=
  isSymbolChar c || c.isDigit

/-- The point and the digits after it that extend a number, if a digit follows the point. -/
def fraction : List Char → List Char
  | '.' :: c :: rest => if c.isDigit then '.' :: c :: rest.takeWhile Char.isDigit else []
  | _ => []

/-- The token that starts at the character `c`, if any: its kind and the characters after `c`. -/
def headToken? (c : Char) (rest : List Char) : Option (TokenKind × List Char) :=
  if isSymbolChar c then
    match rest.takeWhile isWordChar with
    | [] => none
    | more => some (.word, more)
  else if c == openMark then some (.quoteOpen, [])
  else if c == closeMark then some (.quoteClose, [])
  else if Text.isBlank c then some (.blank, rest.takeWhile Text.isBlank)
  else if c.isDigit then
    some (.number, rest.takeWhile Char.isDigit ++ fraction (rest.dropWhile Char.isDigit))
  else none

/-- Splits the rest of a text, which begins at `start`; `done` holds the tokens before it, the
latest first. -/
def scanFrom (start : Nat) (done : List Token) (text : List Char) : List Token :=
  match text with
  | [] => done.reverse
  | c :: rest =>
    match headToken? c rest with
    | none => scanFrom (start + 1) done rest
    | some (kind, more) =>
      let token : Token := ⟨kind, start, more.length + 1, String.ofList (c :: more)⟩
      scanFrom (start + more.length + 1) (token :: done) (rest.drop more.length)
termination_by text.length
decreasing_by all_goals simp only [List.length_cons, List.length_drop]; omega

/-- The tokens of a text, in order. -/
def scan (text : String) : List Token :=
  scanFrom 0 [] text.toList

end QuoteStack.Token
