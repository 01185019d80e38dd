import QuoteStack.Decimal.Notation
import QuoteStack.Decimal.Range

/-!
What a text can stand for where a number is expected. Beside numbers there are infinities, and marks
for what is no number; such a mark may be signalling, and digits behind it may tell where it comes
from. No computation gives any of these, but they can be read.
-/

namespace QuoteStack.Decimal

/-- A number, an infinity, or a mark for what is no number. The digits behind a mark are a natural
number, and zero stands for none. -/
inductive Extended where
  | finite (n : Decimal)
  | infinity (negative : Bool)
  | nan (negative signaling : Bool) (payload : Nat)
  deriving DecidableEq

namespace Extended

/-- The written form. -/
def toText : Extended → String
  | .finite n => n.toText
  | .infinity negative => (if negative then "-" else "") ++ "Infinity"
  | .nan negative signaling payload =>
    (if negative then "-" else "") ++ (if signaling then "sNaN" else "NaN") ++
      if payload = 0 then "" else toString payload

/-- Reads the digits behind a mark, which end the text. They are as many as a number can have at
most, without the zeros before them. -/
def readPayload? (text : List Char) : Option Nat :=
  match spanDigits text with
  | (digits, []) =>
    if maxPrecision < (digits.dropWhile (· == 0)).length then none else some (Text.ofDigits digits)
  | _ => none

/-- Reads an infinity or a mark, without the sign and in small letters. -/
def readName? (negative : Bool) : List Char → Option Extended
  | ['i', 'n', 'f'] | ['i', 'n', 'f', 'i', 'n', 'i', 't', 'y'] => some (.infinity negative)
  | 'n' :: 'a' :: 'n' :: payload => (readPayload? payload).map (.nan negative false)
  | 's' :: 'n' :: 'a' :: 'n' :: payload => (readPayload? payload).map (.nan negative true)
  | _ => none

/-- Reads a text: blanks around it, underscores in it and the case of letters do not count. -/
def ofText? (text : String) : Option Extended :=
  let (negative, body) := Text.splitSign ((Text.trim text.toList).filter (· != '_'))
  match readName? negative (body.map Char.toLower) with
  | some found => some found
  | none => (Decimal.ofText? text).map .finite

end Extended

end QuoteStack.Decimal
