import QuoteStack.Arithmetic

/-!
Procedures that a host program may bind besides the builtin ones.
-/

namespace QuoteStack.Host

/-- Doubles the top of the stack. -/
def duplicate : Procedure :=
  .pop fun v => .push v <| .push v .done

/-- Exchanges the two values at the top of the stack. -/
def exchange : Procedure :=
  .pop fun top => .pop fun below => .push top <| .push below .done

/-- Takes the top of the stack. -/
def drop : Procedure :=
  .pop fun _ => .done

/-- Empties the stack. -/
def clear : Procedure :=
  .clear .done

/-- Pushes the number of values on the stack. -/
def height : Procedure :=
  .height fun n => .push (.number (.ofNat n)) .done

/-- Pushes the number of dispatches in progress. -/
def depth : Procedure :=
  .depth fun n => .push (.number (.ofNat n)) .done

/-- Takes the top of the stack and executes it. -/
def evaluate : Procedure :=
  .pop fun v => .execute v .done

/-- Takes the top of the stack and executes it in a child environment that is then given up. -/
def evaluateInChild : Procedure :=
  .pop fun v => .inChild [] (.execute v .done) fun _ => .done

/-- Refuses to work. -/
def refuse : Procedure :=
  .fail (.refused "bad input")

/-- Dispatches a name. -/
def caller (name : String) : Procedure :=
  .execute (.symbol name) .done

/-- The rules that a host may choose for the numbers of an arithmetic operator. -/
inductive NumberRule where
  | add
  | subtract
  | multiply
  | larger

/-- Combines two numbers. -/
def NumberRule.apply (rule : NumberRule) (memory : Nat) (x y : Decimal) :
    Except Decimal.ArithmeticFault Decimal :=
  match rule with
  | .add => x.storedSum memory y
  | .subtract => x.storedDifference memory y
  | .multiply => x.storedProduct y
  | .larger => .ok (x.larger y)

/-- The rules that a host may choose for the symbols of an arithmetic operator. -/
inductive SymbolRule where
  | join
  | first

/-- Combines two symbols. -/
def SymbolRule.apply : SymbolRule → String → String → String
  | .join, x, y => x ++ y
  | .first, x, _ => x

/-- An arithmetic operator with chosen rules. -/
def operator (name : String) (numbers : NumberRule) (symbols : SymbolRule) : Operator :=
  { name
    symbols := fun x y => .ok (symbols.apply x y)
    numbers := fun context x y => (numbers.apply context.memory x y).mapError .arithmetic }

end QuoteStack.Host
