import QuoteStack.Decimal.Length

/-!
Decimal numbers with exact addition, subtraction and multiplication. A number keeps the digits it
was written with, so `1.5` and `1.50` differ; so do `0` and `-0`.
-/

namespace QuoteStack

/-- The decimal number `± coefficient · 10 ^ exponent`. -/
structure Decimal where
  negative : Bool
  coefficient : Nat
  exponent : Int
  deriving DecidableEq, Inhabited

namespace Decimal

/-- A natural number as a decimal number. -/
def ofNat (n : Nat) : Decimal :=
  ⟨false, n, 0⟩

/-- How many digits the coefficient is written with; zero has one. -/
def digitCount (x : Decimal) : Nat :=
  lengthOf x.coefficient

/-- The exponent of the leading digit. -/
def leading (x : Decimal) : Int :=
  x.exponent + x.digitCount - 1

/-- The absolute value counted in units of `10 ^ e`, for an `e` that is at most the exponent. A zero
has none, however far its exponent is away. -/
def magnitudeAt (x : Decimal) (e : Int) : Nat :=
  if x.coefficient = 0 then 0 else x.coefficient * tenTo (x.exponent - e).toNat

/-- The number counted in units of `10 ^ e`, for an `e` that is at most the exponent. -/
def unitsAt (x : Decimal) (e : Int) : Int :=
  if x.negative then -x.magnitudeAt e else x.magnitudeAt e

/-- The number with the other sign; zero has a sign too. -/
def neg (x : Decimal) : Decimal :=
  { x with negative := !x.negative }

/-- The exact sum, with the lesser of the two exponents. A zero sum is negative only if both
summands are. -/
def add (x y : Decimal) : Decimal :=
  let e := min x.exponent y.exponent
  let units := x.unitsAt e + y.unitsAt e
  { negative := if units = 0 then x.negative && y.negative else units < 0
    coefficient := units.natAbs
    exponent := e }

/-- The exact difference, which is the sum with the second number negated. -/
def sub (x y : Decimal) : Decimal :=
  x.add y.neg

/-- The exact product; signs multiply for zeros too. -/
def mul (x y : Decimal) : Decimal :=
  { negative := x.negative != y.negative
    coefficient := x.coefficient * y.coefficient
    exponent := x.exponent + y.exponent }

/-- Whether `x` is nearer to zero than `y`, whatever the signs. Only numbers whose leading digits
stand at the same place are counted in the same units. -/
def isNearerZero (x y : Decimal) : Bool :=
  if y.coefficient = 0 then false
  else if x.coefficient = 0 then true
  else if x.leading = y.leading then
    let e := min x.exponent y.exponent
    x.magnitudeAt e < y.magnitudeAt e
  else x.leading < y.leading

/-- Whether `x` is less than zero. -/
def isBelowZero (x : Decimal) : Bool :=
  x.negative && x.coefficient != 0

/-- Whether `x` is less than `y` as a number, whatever the exponents and the sign of a zero. -/
def less (x y : Decimal) : Bool :=
  if x.isBelowZero then !y.isBelowZero || y.isNearerZero x
  else !y.isBelowZero && x.isNearerZero y

/-- The larger of two numbers, and the first one if they are equal. -/
def larger (x y : Decimal) : Decimal :=
  if x.less y then y else x

end Decimal

end QuoteStack
