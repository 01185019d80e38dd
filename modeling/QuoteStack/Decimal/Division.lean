import QuoteStack.Decimal.Range
import QuoteStack.MachineInteger

/-!
Division of decimal numbers to a given precision. A quotient that fits the precision is exact, with
an exponent as near as possible to the difference of the operands' exponents; any other is rounded
once, a half to the even neighbour. Exponents are bounded: below the least one a quotient loses
digits, and above the greatest one there is none.
-/

namespace QuoteStack.Decimal

/-- The greatest exponent that the leading digit of a quotient may have. -/
def maxExponent : Int := 999999

/-- The range of quotients of `precision` digits. -/
def Range.ofQuotients (precision : Int) : Range :=
  .ofPrecision precision maxExponent

/-- The exponent of the leading digit of `n / d`, for positive `n` and `d`. -/
def leadingExponent (n d : Nat) : Int :=
  let gap : Int := lengthOf n - lengthOf d
  if d * tenTo gap.toNat ≤ n * tenTo (-gap).toNat then gap else gap - 1

/-- Drops zeros at the end of a coefficient, at most `limit` many, and counts them. They are dropped
in blocks of lengths that are powers of two, each length once, the longest first. -/
def dropBlocks : (lengths limit coefficient : Nat) → Nat × Nat
  | 0, _, coefficient => (coefficient, 0)
  | lengths + 1, limit, coefficient =>
    let length := Nat.pow 2 lengths
    if length ≤ limit && coefficient % tenTo length == 0 then
      let (rest, count) := dropBlocks lengths (limit - length) (coefficient / tenTo length)
      (rest, count + length)
    else dropBlocks lengths limit coefficient

/-- Drops zeros at the end of a coefficient, as many as there are and at most `limit`, and counts
them. -/
def dropZeros (limit coefficient : Nat) : Nat × Nat :=
  dropBlocks (limit.log2 + 1) limit coefficient

/-- A quotient, and whether it is exact. -/
structure Quotient where
  value : Decimal
  exact : Bool

/-- The quotient of two numbers other than zero, to `precision` digits. -/
def quotient (precision : Nat) (x y : Decimal) : Quotient :=
  let negative := x.negative != y.negative
  let ideal := x.exponent - y.exponent
  let leading := leadingExponent x.coefficient y.coefficient + ideal
  -- the place of the last digit
  let place := max (leading - (precision - 1)) (Range.ofQuotients precision).least
  if leading + 1 < place then
    -- less than a tenth of the least number
    ⟨⟨negative, 0, place⟩, false⟩
  else
    let n := x.coefficient * tenTo (ideal - place).toNat
    let d := y.coefficient * tenTo (place - ideal).toNat
    let rounded := roundedQuotient n d
    if rounded * d = n then
      -- exact: as near to the ideal exponent as the digits allow
      let (coefficient, count) := dropZeros (ideal - place).toNat rounded
      ⟨⟨negative, coefficient, place + count⟩, true⟩
    else if rounded = tenTo precision then
      -- rounding made one digit too many, and the last one is a zero
      ⟨⟨negative, tenTo (precision - 1), place + 1⟩, false⟩
    else ⟨⟨negative, rounded, place⟩, false⟩

/-- As many digits as an exact quotient can have: those of `x`, and up to four for each digit of `y`
that divides a power of ten. -/
def exactLength (x y : Decimal) : Nat :=
  x.digitCount + 4 * y.digitCount

/-- Whether the leading digit of a number stands where quotients have their full precision. -/
def isNormal (x : Decimal) : Bool :=
  x.leading.natAbs ≤ maxExponent

/-- The quotient of two numbers other than zero, to `precision` digits. The digits of an exact one
are found without the zeros behind them; for the digits of any other there may be no memory. -/
def quotient? (memory precision : Nat) (x y : Decimal) : Option Quotient :=
  let short := quotient (min precision (exactLength x y)) x y
  if precision ≤ exactLength x y || (short.exact && short.value.isNormal) then some short
  else if memory < precision then none
  else some (quotient precision x y)

/-- Divides `x` by `y` to as many significant digits as the context says. -/
def divide (context : Context) (x y : Decimal) : Except ArithmeticFault Decimal :=
  let precision := context.precision
  if !isMachineInteger precision then .error .precisionSize
  else if precision < 1 || maxPrecision < precision then .error .precision
  else if y.coefficient = 0 then
    .error (if x.coefficient = 0 then .undefined else .byZero)
  else
    let range := Range.ofQuotients precision
    if x.coefficient = 0 then
      .ok (range.zero (x.negative != y.negative) (x.exponent - y.exponent))
    else
      match quotient? context.memory precision.toNat x y with
      | none => .error .memory
      | some result =>
        -- the leading digit of the rounded quotient decides about overflow
        if range.greatest < result.value.leading then .error .overflow else .ok result.value

end QuoteStack.Decimal
