import QuoteStack.Text.Printable

/-!
Quoted texts, as messages show them: between single quotes, or between double quotes if the text
holds single quotes only, with escapes for the quote, the backslash and all that is not printable.
-/

namespace QuoteStack.Text

/-- A number in lower-case hexadecimal with at least `width` digits. -/
def hexadecimal (width n : Nat) : List Char :=
  let digits := Nat.toDigits 16 n
  List.replicate (width - digits.length) '0' ++ digits

/-- The mark that encloses a text: double quotes exactly if only single quotes occur in it. -/
def quoteMark (text : List Char) : Char :=
  if text.contains '\'' && !text.contains '"' then '"' else '\''

/-- A character by its code: with two, four or eight hexadecimal digits, as few as will do. -/
def codeEscape (c : Char) : List Char :=
  if c.toNat < 0x100 then '\\' :: 'x' :: hexadecimal 2 c.toNat
  else if c.toNat < 0x10000 then '\\' :: 'u' :: hexadecimal 4 c.toNat
  else '\\' :: 'U' :: hexadecimal 8 c.toNat

/-- A character inside a quoted text. -/
def escaped (mark c : Char) : List Char :=
  if c == mark || c == '\\' then ['\\', c]
  else if c == '\t' then ['\\', 't']
  else if c == '\n' then ['\\', 'n']
  else if c == '\r' then ['\\', 'r']
  else if isPrintable c then [c]
  else codeEscape c

/-- A text between quotes. -/
def quoted (text : List Char) : List Char :=
  let mark := quoteMark text
  mark :: (text.flatMap (escaped mark) ++ [mark])

/-- A text between quotes with escapes for all that is not ASCII too. -/
def asciiQuoted (text : List Char) : List Char :=
  (quoted text).flatMap fun c => if c.toNat < 0x80 then [c] else codeEscape c

/-- A string between quotes. -/
def quote (text : String) : String :=
  String.ofList (quoted text.toList)

end QuoteStack.Text
