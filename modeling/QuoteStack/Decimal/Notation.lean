import QuoteStack.Decimal.Basic
import QuoteStack.Text.Numeral

/-!
The written form of decimal numbers. Writing keeps all digits and the exponent: a number is written
with a decimal point if its exponent is not positive and its leading digit stands at the sixth
decimal place or before it, and with an exponent mark otherwise. Reading accepts all that writing
produces and some looser forms.
-/

namespace QuoteStack.Decimal

/-- Digits with a point before the last `places` of them, filled up with zeros so that a digit
stands before the point. -/
def positional (digits : List Char) (places : Nat) : List Char :=
  let filled := List.replicate (places + 1 - digits.length) '0' ++ digits
  let whole := filled.length - places
  if places = 0 then filled else filled.take whole ++ '.' :: filled.drop whole

/-- Digits with a point after the first one, and the exponent of that digit. -/
def scientific (digits : List Char) (leading : Int) : List Char :=
  let mantissa :=
    match digits with
    | first :: second :: rest => first :: '.' :: second :: rest
    | short => short
  mantissa ++ 'E' :: (if leading < 0 then '-' else '+') :: Nat.toDigits 10 leading.natAbs

/-- The characters that a number is written with. -/
def toChars (x : Decimal) : List Char :=
  let digits := Nat.toDigits 10 x.coefficient
  let leading : Int := x.exponent + digits.length - 1
  let magnitude :=
    if x.exponent ≤ 0 ∧ -6 ≤ leading then positional digits (-x.exponent).toNat
    else scientific digits leading
  if x.negative then '-' :: magnitude else magnitude

/-- The written form of a number. -/
def toText (x : Decimal) : String :=
  String.ofList x.toChars

/-- Splits off the decimal digits at the head of a text and gives their values. -/
def spanDigits : List Char → List Nat × List Char
  | [] => ([], [])
  | c :: rest =>
    match Text.digitValue? c with
    | some digit =>
      let (digits, after) := spanDigits rest
      (digit :: digits, after)
    | none => ([], c :: rest)

/-- Reads a fraction: a point and any number of digits, or nothing. -/
def readFraction : List Char → List Nat × List Char
  | '.' :: rest => spanDigits rest
  | text => ([], text)

/-- Reads an exponent that ends the text: a mark, a sign and digits, or nothing. -/
def readExponent? : List Char → Option Int
  | [] => some 0
  | mark :: rest =>
    if mark == 'e' || mark == 'E' then
      let (negative, body) := Text.splitSign rest
      match spanDigits body with
      | (first :: digits, []) =>
        let magnitude := Text.ofDigits (first :: digits)
        some (if negative then -magnitude else magnitude)
      | _ => none
    else none

/-- Reads a number: blanks around it and underscores in it do not count, and there is a digit
before or after the point. -/
def ofChars? (text : List Char) : Option Decimal :=
  let (negative, body) := Text.splitSign ((Text.trim text).filter (· != '_'))
  let (whole, afterWhole) := spanDigits body
  let (fraction, afterFraction) := readFraction afterWhole
  match whole ++ fraction, readExponent? afterFraction with
  | first :: digits, some exponent =>
    some ⟨negative, Text.ofDigits (first :: digits), exponent - fraction.length⟩
  | _, _ => none

/-- Reads a number from a string. -/
def ofText? (text : String) : Option Decimal :=
  ofChars? text.toList

end QuoteStack.Decimal
