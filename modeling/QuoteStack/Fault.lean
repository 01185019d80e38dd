import QuoteStack.Decimal.Division
import QuoteStack.Text.Numeral
import QuoteStack.Text.Quoted
import QuoteStack.Value.Layout

/-!
Faults: why a program, or an operation on an environment, has no result.
-/

namespace QuoteStack

/-- The causes of failure. -/
inductive Fault where
  /-- No environment up to the root binds the symbol. -/
  | undefinedSymbol (name : String)
  /-- Dispatches nest deeper than the limit. -/
  | callDepth (limit : Text.ShortInteger)
  /-- Dispatches nest deeper than a limit that has too many digits to be told. -/
  | longLimit
  /-- An external procedure failed. -/
  | external (cause : Fault)
  /-- A value was taken from an empty stack. -/
  | stackUnderflow
  /-- Something that is no value was to be executed. -/
  | notExecutable (kind : String)
  /-- A register holds something that is no cell. -/
  | notACell (name content : String)
  /-- A variable is read, but its name is bound to something else. -/
  | notAVariable (name : String)
  /-- An arithmetic operator met a value that is no block. -/
  | foldOfValue (operator : String) (operand : Value)
  /-- An arithmetic operator met an empty block. -/
  | foldOfNothing (operator : String)
  /-- An arithmetic operator met two values of different kinds. -/
  | kindMismatch (left right : Value)
  /-- An arithmetic operator met two symbols and has no meaning for them. -/
  | symbolOperands
  /-- An arithmetic operator met two blocks of different lengths. -/
  | lengthMismatch (left right : Nat)
  /-- A value that is no block was to become a closure. -/
  | closureOfValue (operand : Value)
  /-- A binding is no pair. -/
  | notAPair (operand : Value)
  /-- A binding has no symbol to bind. -/
  | notABinding (operand : Value)
  /-- An operation on two numbers has no result. -/
  | arithmetic (fault : Decimal.ArithmeticFault)
  /-- A token is marked as a number and is none. -/
  | malformedNumber
  /-- A token is a number that cannot be stored. -/
  | numberOutOfRange
  /-- A stack has no element at the place asked for. -/
  | noSuchElement
  /-- The place asked for in a stack is no machine integer. -/
  | indexSize
  /-- A host procedure refused its input. -/
  | refused (reason : String)

namespace Fault

/-- The codes of the faults that the language itself defines. -/
inductive Code where
  | undefinedSymbol
  | externalError
  | typeError
  | dimError
  | letError
  | stackUnderflow
  | recursionLimit
  deriving DecidableEq

/-- The name of a code. -/
def Code.name : Code → String
  | .undefinedSymbol => "E_UNDEFINED_SYMBOL"
  | .externalError => "E_EXTERNAL_ERROR"
  | .typeError => "E_TYPE_ERROR"
  | .dimError => "E_DIM_ERROR"
  | .letError => "E_LET_ERROR"
  | .stackUnderflow => "E_STACK_UNDERFLOW"
  | .recursionLimit => "E_RECURSION_LIMIT"

/-- The code of a fault; faults of arithmetic and of the host have none. -/
def code? : Fault → Option Code
  | .undefinedSymbol _ => some .undefinedSymbol
  | .callDepth _ => some .recursionLimit
  | .external _ => some .externalError
  | .stackUnderflow => some .stackUnderflow
  | .notExecutable _ | .notACell _ _ | .notAVariable _ | .foldOfValue _ _ | .foldOfNothing _
  | .kindMismatch _ _ | .symbolOperands | .closureOfValue _ => some .typeError
  | .lengthMismatch _ _ => some .dimError
  | .notAPair _ | .notABinding _ => some .letError
  | .longLimit | .arithmetic _ | .malformedNumber | .numberOutOfRange | .noSuchElement
  | .indexSize | .refused _ => none

/-- A text with the code of the fault, if it has one, before it. -/
def withCode (code? : Option Code) (text : String) : String :=
  match code? with
  | some code => "[" ++ code.name ++ "] " ++ text
  | none => text

/-- The wording of the faults of arithmetic; a lack of memory has none. -/
def arithmeticText : Decimal.ArithmeticFault → String
  | .precisionSize => "Python int too large to convert to C ssize_t"
  | .precision => "valid range for prec is [1, MAX_PREC]"
  | .byZero => "[<class 'decimal.DivisionByZero'>]"
  | .undefined => "[<class 'decimal.DivisionUndefined'>]"
  | .overflow => "[<class 'decimal.Overflow'>]"
  | .memory => ""

/-- The wording of a fault without its code. -/
def text : Fault → String
  | .undefinedSymbol name => "undefined symbol: " ++ name
  | .callDepth limit => "maximum call depth " ++ toString limit.value ++ " exceeded"
  | .longLimit => Text.longInteger
  | .external cause =>
    "error in call to external function: " ++ withCode cause.code? cause.text
  | .stackUnderflow => "stack underflow"
  | .notExecutable kind => "cannot execute " ++ kind
  | .notACell name content => "bad register cell for " ++ name ++ ": " ++ Text.quote content
  | .notAVariable name => name ++ " is not a value binding"
  | .foldOfValue operator operand =>
    "type error: " ++ operator ++ " expects a block, got " ++ operand.render
  | .foldOfNothing operator => "type error: " ++ operator ++ " of an empty block"
  | .kindMismatch left right => "type error: " ++ left.render ++ " and " ++ right.render
  | .symbolOperands => "type error: operator does not accept symbols"
  | .lengthMismatch left right =>
    "dim error: " ++ toString left ++ " and " ++ toString right ++ " elements"
  | .closureOfValue operand => "do: expected block, got " ++ operand.render
  | .notAPair operand => "let: expected quoted pair, got " ++ operand.render
  | .notABinding operand => "let: expected value-symbol pair, got " ++ operand.render
  | .arithmetic fault => arithmeticText fault
  | .malformedNumber => "[<class 'decimal.ConversionSyntax'>]"
  | .numberOutOfRange => "[<class 'decimal.InvalidOperation'>]"
  | .noSuchElement => "list index out of range"
  | .indexSize => "cannot fit 'int' into an index-sized integer"
  | .refused reason => reason

/-- The wording of a fault. -/
def message (fault : Fault) : String :=
  withCode fault.code? fault.text

/-- What a failure inside an external procedure becomes outside: it is wrapped once, and the limit
on nesting passes through unchanged. -/
def wrap : Fault → Fault
  | .external cause => .external cause
  | .callDepth limit => .callDepth limit
  | cause => .external cause

/-- A fault that has been wrapped is not wrapped again. -/
theorem wrap_wrap (fault : Fault) : fault.wrap.wrap = fault.wrap := by
  cases fault <;> rfl

end Fault

end QuoteStack
