import QuoteStack.Decimal.Division
import QuoteStack.Procedure

/-!
Arithmetic operators. An operator folds the items of a block from the left. Two numbers are
combined by its rule for numbers and two symbols by its rule for symbols; two blocks of equal
length are combined item by item by dispatching the operator's name on each pair, so another
binding of that name takes part.
-/

namespace QuoteStack

/-- An arithmetic operator: its name and its rules for symbols and for numbers, the latter given
what numbers are computed with. -/
structure Operator where
  name : String
  symbols : String → String → Except Fault String
  numbers : Decimal.Context → Decimal → Decimal → Except Fault Decimal

namespace Operator

/-- Combines the items of two blocks pair by pair; `combined` holds the results so far, the latest
first. -/
def pairwise (name : String) (next : List Value → Procedure) (combined : List Value) :
    List Value → List Value → Procedure
  | v :: left, w :: right =>
    .push (.block [v, w]) <| .execute (.symbol name) <| .pop fun result =>
      pairwise name next (result :: combined) left right
  | _, _ => next combined.reverse

/-- Combines two values. -/
def combine (op : Operator) (left right : Value) (next : Value → Procedure) : Procedure :=
  match left, right with
  | .block left, .block right =>
    if left.length ≠ right.length then .fail (.lengthMismatch left.length right.length)
    else pairwise op.name (fun items => next (.block items)) [] left right
  | .number x, .number y =>
    .context fun context =>
      match op.numbers context x y with
      | .ok result => next (.number result)
      | .error fault => .fail fault
  | .symbol x, .symbol y =>
    match op.symbols x y with
    | .ok result => next (.symbol result)
    | .error fault => .fail fault
  | left, right => .fail (.kindMismatch left right)

/-- Combines a result with further values in order. -/
def foldFrom (op : Operator) (next : Value → Procedure) (result : Value) :
    List Value → Procedure
  | [] => next result
  | v :: rest => op.combine result v fun result => foldFrom op next result rest

/-- Replaces the block at the top of the stack by the fold of its items. -/
def fold (op : Operator) : Procedure :=
  .pop fun operand =>
    match operand with
    | .block [] => .fail (.foldOfNothing op.name)
    | .block (first :: rest) => op.foldFrom (fun result => .push result .done) first rest
    | operand => .fail (.foldOfValue op.name operand)

end Operator

/-- The rule for symbols of the operators that have no meaning for them. -/
def refuseSymbols (_ _ : String) : Except Fault String :=
  .error .symbolOperands

/-- The sum, which joins symbols. -/
def sumOperator (name : String) : Operator :=
  { name, symbols := fun x y => .ok (x ++ y),
    numbers := fun context x y => (x.storedSum context.memory y).mapError .arithmetic }

/-- The product. -/
def productOperator (name : String) : Operator :=
  { name, symbols := refuseSymbols,
    numbers := fun _ x y => (x.storedProduct y).mapError .arithmetic }

/-- The quotient. -/
def quotientOperator (name : String) : Operator :=
  { name, symbols := refuseSymbols,
    numbers := fun context x y => (Decimal.divide context x y).mapError .arithmetic }

/-- The difference. -/
def differenceOperator (name : String) : Operator :=
  { name, symbols := refuseSymbols,
    numbers := fun context x y => (x.storedDifference context.memory y).mapError .arithmetic }

end QuoteStack
