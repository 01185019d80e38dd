/-!
The integers that fit a machine word.
-/

namespace QuoteStack

/-- Whether an integer fits a word of 64 bits with a sign. -/
def isMachineInteger (n : Int) : Bool :=
  -9223372036854775808 ≤ n && n ≤ 9223372036854775807

end QuoteStack
