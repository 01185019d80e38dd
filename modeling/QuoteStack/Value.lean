import QuoteStack.Decimal.Basic

/-!
Values: what programs are made of and what they compute with.
-/

namespace QuoteStack

/-- A number, a symbol, or a block of values. A block is a quoted program and a list alike. -/
inductive Value where
  | number (n : Decimal)
  | symbol (name : String)
  | block (items : List Value)
  deriving Inhabited

namespace Value

/-- Induction on a value, where all items of a block satisfy what is shown of the block. -/
@[induction_eliminator]
theorem induct {motive : Value → Prop} (number : ∀ n, motive (.number n))
    (symbol : ∀ name, motive (.symbol name))
    (block : ∀ items, (∀ v ∈ items, motive v) → motive (.block items)) (v : Value) :
    motive v := by
  refine @Value.rec motive (fun items => ∀ v ∈ items, motive v) number symbol block ?_ ?_ v
  · intro v hv
    exact absurd hv List.not_mem_nil
  · intro first rest hfirst hrest v hv
    rcases List.mem_cons.mp hv with rfl | hv
    · exact hfirst
    · exact hrest v hv

mutual

/-- A size of a value by which work on nested blocks gets less. -/
def weight : Value → Nat
  | .number _ => 1
  | .symbol _ => 1
  | .block items => 2 + weightAll items

/-- The weights of a row of values, with one more for each. -/
def weightAll : List Value → Nat
  | [] => 0
  | v :: rest => v.weight + 1 + weightAll rest

end

end Value

end QuoteStack
