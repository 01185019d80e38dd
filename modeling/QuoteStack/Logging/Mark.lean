import QuoteStack.Text.Alphanumeric
import QuoteStack.Text.Digit
import QuoteStack.Text.Quoted

/-!
Marks in the form of log lines. A mark is a percent sign, the name of a field in parentheses, flags,
a width, a point with a precision, and a letter for the way in which the field is written. All but
the letter may be missing; a mark without a name stands for the record as a whole.
-/

namespace QuoteStack.Logging

/-- How a mark has its field written. -/
structure Style where
  flags : List Char := []
  width : Nat := 0
  precision? : Option Nat := none
  letter : Char
  deriving DecidableEq

/-- What a field becomes in the styles that make sense for it. -/
abbrev Writer := Style → Option (List Char)

namespace Style

/-- As the field is, without room to fill. -/
def plain : Style := { letter := 's' }

/-- A text filled up with spaces to the width. -/
def pad (style : Style) (text : List Char) : List Char :=
  let spaces := List.replicate (style.width - text.length) ' '
  if style.flags.contains '-' then text ++ spaces else spaces ++ text

/-- The beginning of a text, as far as the precision allows. -/
def cut (style : Style) (text : List Char) : List Char :=
  match style.precision? with
  | some precision => text.take precision
  | none => text

/-- Writes a text: as it is, between quotes, between quotes and in ASCII, or as one character, which
the precision is not for. The letters for numbers make no sense for texts, and no text is longer
than there is memory for. -/
def writeText? (maxLength : Nat) (text : List Char) : Writer := fun style =>
  if maxLength < style.width then none
  else
    match style.letter with
    | 's' => some (style.pad (style.cut text))
    | 'r' => some (style.pad (style.cut (Text.quoted text)))
    | 'a' => some (style.pad (style.cut (Text.asciiQuoted text)))
    | 'c' => if text.length = 1 then some (style.pad text) else none
    | _ => none

/-- Writes a number; how the letters for numbers write it is given. -/
def writeNumber? (maxLength : Nat) (inLetter : Int → Writer) (n : Int) : Writer := fun style =>
  if style.letter == 's' || style.letter == 'r' || style.letter == 'a' then
    writeText? maxLength (toString n).toList { style with letter := 's' }
  else inLetter n style

end Style

/-- A mark, which says what is written, and how. -/
structure Mark where
  /-- The name of the field; without one the record as a whole is written. -/
  name? : Option (List Char)
  style : Style
  deriving DecidableEq

namespace Mark

/-- Whether a character is a flag. -/
def isFlag (c : Char) : Bool :=
  c == '#' || c == '0' || c == '+' || c == ' ' || c == '-'

/-- The letters that end a mark. -/
def letters : List Char :=
  "diouxXeEfFgGcrsa".toList

/-- The greatest width. -/
def maxWidth : Nat := 9223372036854775807

/-- The greatest precision. -/
def maxPrecision : Nat := 2147483647

/-- Splits a name off a text, up to the parenthesis that closes it; so many more are open inside. -/
def readName? : (inner : Nat) → List Char → Option (List Char × List Char)
  | _, [] => none
  | 0, ')' :: rest => some ([], rest)
  | inner + 1, ')' :: rest => (readName? inner rest).map fun (name, after) => (')' :: name, after)
  | inner, c :: rest =>
    (readName? (if c == '(' then inner + 1 else inner) rest).map fun (name, after) =>
      (c :: name, after)

/-- Splits the name of a field in parentheses off a text, if it starts with one. -/
def readField? (text : List Char) : Option (Option (List Char) × List Char) :=
  match text with
  | '(' :: rest => (readName? 0 rest).map fun (name, after) => (some name, after)
  | _ => some (none, text)

/-- Splits a size off a text, which is zero if there are no digits. A star is no size here: it asks
for a value of its own, and there is none. -/
def readSize? (maxSize : Nat) (text : List Char) : Option (Nat × List Char) :=
  let (digits, rest) := text.span Char.isDigit
  let size := Text.ofDigits (digits.map fun c => c.toNat - '0'.toNat)
  if size ≤ maxSize && rest.head? != some '*' then some (size, rest) else none

/-- Splits a point and a precision off a text. -/
def readPrecision? (text : List Char) : Option (Option Nat × List Char) :=
  match text with
  | '.' :: rest =>
    (readSize? maxPrecision rest).map fun (precision, after) => (some precision, after)
  | _ => some (none, text)

/-- Splits a letter off a text. One before it that gives the size of numbers is skipped. -/
def readLetter? (text : List Char) : Option (Char × List Char) :=
  let text :=
    match text with
    | 'h' :: rest | 'l' :: rest | 'L' :: rest => rest
    | _ => text
  match text with
  | letter :: rest => if letters.contains letter then some (letter, rest) else none
  | [] => none

/-- Reads a mark behind its percent sign, and gives what follows. -/
def read? (text : List Char) : Option (Mark × List Char) := do
  let (name?, text) ← readField? text
  let (flags, text) := text.span isFlag
  let (width, text) ← readSize? maxWidth text
  let (precision?, text) ← readPrecision? text
  let (letter, rest) ← readLetter? text
  some (⟨name?, ⟨flags, width, precision?, letter⟩⟩, rest)

/-- Whether a letter ends a mark in the texts that describe a form: a percent sign, or the letter of
a conversion in either case. The dotless and the dotted letter count as `i`, the long one as `s`. -/
def isClosing (c : Char) : Bool :=
  "diouxefgcrsa%DIOUXEFGCRSA\u0130\u0131\u017f".toList.contains c

/-- Whether a character may stand in the name of a field. -/
def isNameChar (c : Char) : Bool :=
  Text.isAlphanumeric c || c == '_'

/-- What follows a size; a star may stand for the digits. -/
def dropSize (text : List Char) : List Char :=
  match text with
  | '*' :: rest => rest
  | _ => text.dropWhile fun c => (Text.digitValue? c).isSome

/-- What follows a point and a size, if a text starts with them. -/
def dropLimit (text : List Char) : List Char :=
  match text with
  | '.' :: places =>
    let rest := dropSize places
    if rest.length < places.length then rest else text
  | _ => text

/-- Whether a text starts with a mark for a field, whatever its name. -/
def startsMark (text : List Char) : Bool :=
  match text with
  | '%' :: '(' :: rest =>
    match rest.span isNameChar with
    | (_ :: _, ')' :: rest) =>
      (dropLimit (dropSize (rest.dropWhile isFlag))).head?.any isClosing
    | _ => false
  | _ => false

/-- Whether a mark for a field occurs in a text. -/
def occursIn : List Char → Bool
  | [] => false
  | c :: rest => startsMark (c :: rest) || occursIn rest

end Mark

end QuoteStack.Logging
