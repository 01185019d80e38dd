import QuoteStack.Arithmetic
import QuoteStack.Machine.Run

/-!
The procedures that every program can use.
-/

namespace QuoteStack.Builtin

/-- Prints the top of the stack and leaves it there. -/
def print : Procedure :=
  .peek fun top? =>
    let text := Value.renderTop top?
    .emit (.shown text) <| .emit (.printed text) .done

/-- Makes a closure of the block at the top of the stack: binds a new name to it here, and puts the
name in its place. -/
def makeClosure : Procedure :=
  .pop fun operand =>
    match operand with
    | .block items =>
      .mint fun name =>
        .register name (.external (.executeAll items)) <| .emit (.closed name) <|
          .push (.symbol name) .done
    | operand => .fail (.closureOfValue operand)

/-- Takes pairs of a value and a symbol from the stack down to a symbol, and dispatches it in a
child environment that has the symbols bound to the values; of equal symbols the one taken last
counts. The values that the child is left with are pushed in order. -/
def bindLocally : Procedure :=
  .popBindings fun bindings body =>
    match body with
    | .symbol name =>
      .inChild bindings (.execute (.symbol name) .done) fun results =>
        .pushAll .done results.reverse
    | .block [v, name] => .fail (.notABinding (.block [v, name]))
    | operand => .fail (.notAPair operand)

/-- The arithmetic operators of a new root environment. -/
def operators : List Operator :=
  [sumOperator "sum", sumOperator "add", productOperator "product", productOperator "mul",
    quotientOperator "divide", quotientOperator "div", differenceOperator "subtract",
    differenceOperator "sub"]

/-- The cells of a new root environment. -/
def cells : List (String × Cell) :=
  [("dbg", .external print), ("do", .external makeClosure), ("let", .external bindLocally)] ++
    operators.map fun op => (op.name, .external op.fold)

/-- The names of the cells of a new root environment, sorted. -/
def names : List String :=
  (cells.map (·.1)).mergeSort (· ≤ ·)

end QuoteStack.Builtin
