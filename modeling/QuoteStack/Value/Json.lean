import QuoteStack.Text.Quoted
import QuoteStack.Value.Layout

/-!
Values as JSON in ASCII: blocks are arrays, numbers and symbols are strings.
-/

namespace QuoteStack.Value

/-- A code point as JSON escapes: one UTF-16 unit, or a pair of them beyond the first plane. -/
def unicodeEscape (code : Nat) : List Char :=
  let unit (n : Nat) : List Char := '\\' :: 'u' :: Text.hexadecimal 4 n
  if code < 0x10000 then unit code
  else
    let offset := code - 0x10000
    unit (0xD800 + offset / 0x400) ++ unit (0xDC00 + offset % 0x400)

/-- A character inside a JSON string. -/
def jsonEscaped (c : Char) : List Char :=
  if c == '"' || c == '\\' then ['\\', c]
  else if c == '\n' then ['\\', 'n']
  else if c == '\r' then ['\\', 'r']
  else if c == '\t' then ['\\', 't']
  else if c == '\x08' then ['\\', 'b']
  else if c == '\x0c' then ['\\', 'f']
  else if 0x20 ≤ c.toNat && c.toNat < 0x7F then [c]
  else unicodeEscape c.toNat

/-- A text as a JSON string. -/
def jsonString (text : String) : String :=
  String.ofList ('"' :: (text.toList.flatMap jsonEscaped ++ ['"']))

/-- Numbers and symbols both as strings. -/
def jsonStyle : Style :=
  ⟨fun n => jsonString n.toText, jsonString⟩

/-- A value as JSON. -/
def toJson (v : Value) : String :=
  v.layout jsonStyle

end QuoteStack.Value
