import QuoteStack.Decimal.Basic

/-!
The range of numbers. A number can be stored if the exponents of its leading and its last digit
are within fixed bounds. Sums, differences and products are exact where they can be stored: beyond
the greatest exponent there is no result, and below the least one digits are lost to rounding.
-/

namespace QuoteStack.Decimal

/-- Why an operation on two numbers has no result. -/
inductive ArithmeticFault where
  /-- The precision is no machine integer. -/
  | precisionSize
  /-- The precision is below one digit or above the greatest one. -/
  | precision
  /-- A number other than zero is divided by zero. -/
  | byZero
  /-- Zero is divided by zero. -/
  | undefined
  /-- The result is too large. -/
  | overflow
  /-- The result takes more digits than there is memory for. -/
  | memory
  deriving DecidableEq

/-- What numbers are computed with. -/
structure Context where
  /-- How many significant digits a quotient keeps. -/
  precision : Int := 34
  /-- For how many digits of a result the host has memory. No statement depends on the default. -/
  memory : Nat := 1000000000
  deriving DecidableEq

/-- Bounds for exponents. -/
structure Range where
  /-- The greatest exponent of a leading digit. -/
  greatest : Int
  /-- The least exponent of a last digit. -/
  least : Int

/-- The range of numbers of `precision` digits whose leading digit stands between `-greatest` and
`greatest`; smaller numbers of fewer digits fill the gap at zero. -/
def Range.ofPrecision (precision greatest : Int) : Range :=
  ⟨greatest, -greatest - (precision - 1)⟩

/-- The greatest precision. -/
def maxPrecision : Int := 999999999999999999

/-- The range of the numbers that can be stored. -/
def Range.stored : Range :=
  .ofPrecision maxPrecision 999999999999999999

/-- Whether a number lies in a range. The only digit of a zero is its leading one too. -/
def Range.contains (range : Range) (x : Decimal) : Bool :=
  range.least ≤ x.exponent && x.leading ≤ range.greatest

/-- A zero with the exponent of the range that is nearest to the given one. -/
def Range.zero (range : Range) (negative : Bool) (exponent : Int) : Decimal :=
  ⟨negative, 0, min (max exponent range.least) range.greatest⟩

/-- The quotient of natural numbers rounded to a whole number, a half to the even one. -/
def roundedQuotient (n d : Nat) : Nat :=
  let quotient := n / d
  let twice := 2 * (n % d)
  if d < twice || (twice == d && quotient % 2 == 1) then quotient + 1 else quotient

/-- Rounds a number to a multiple of `10 ^ e`, a half to the even one, for an `e` that is at least
the exponent. A number below a tenth of that is rounded to zero. -/
def roundAt (x : Decimal) (e : Int) : Decimal :=
  let coefficient :=
    if x.leading + 1 < e then 0 else roundedQuotient x.coefficient (tenTo (e - x.exponent).toNat)
  { x with coefficient, exponent := e }

/-- Brings an exact result into a range. -/
def Range.fit (range : Range) (x : Decimal) : Except ArithmeticFault Decimal :=
  if x.coefficient = 0 then .ok (range.zero x.negative x.exponent)
  else if range.greatest < x.leading then .error .overflow
  else if x.exponent < range.least then .ok (x.roundAt range.least)
  else .ok x

/-- A number in the range is left alone. -/
theorem Range.fit_eq_of_contains {range : Range} {x : Decimal} (h : range.contains x) :
    range.fit x = .ok x := by
  obtain ⟨least, greatest⟩ : range.least ≤ x.exponent ∧ x.leading ≤ range.greatest := by
    simpa [contains] using h
  unfold fit
  split
  next zero =>
    have : x.leading = x.exponent := by
      have : x.digitCount = 1 := by simp [digitCount, zero, lengthOf_eq]
      simp only [leading, this]; omega
    have : min (max x.exponent range.least) range.greatest = x.exponent := by omega
    simp [Range.zero, this, ← zero]
  next => rw [if_neg (by omega), if_neg (by omega)]

/-- Whether two numbers stand too far apart for the memory to count them in the same units. -/
def isTooFar (memory : Nat) (x y : Decimal) : Bool :=
  let upper := if x.exponent < y.exponent then y else x
  upper.coefficient != 0 && x.exponent != y.exponent &&
    memory < upper.digitCount + (x.exponent - y.exponent).natAbs

/-- The sum as it can be stored. -/
def storedSum (memory : Nat) (x y : Decimal) : Except ArithmeticFault Decimal :=
  if x.isTooFar memory y then .error .memory else Range.stored.fit (x.add y)

/-- The difference as it can be stored. -/
def storedDifference (memory : Nat) (x y : Decimal) : Except ArithmeticFault Decimal :=
  x.storedSum memory y.neg

/-- The product as it can be stored. -/
def storedProduct (x y : Decimal) : Except ArithmeticFault Decimal :=
  Range.stored.fit (x.mul y)

end QuoteStack.Decimal
