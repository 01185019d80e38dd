import QuoteStack.Decimal.Extended
import QuoteStack.Fault
import QuoteStack.Token.Scan

/-!
Programs from tokens. A program is a sequence of values in reverse order of reading, and so is each
block in it: the value read last runs first. Wrong nesting is no fault: a closing mark without an
opening one ends the program, and blocks left open end where the tokens end.
-/

namespace QuoteStack.Program

/-- What a reader may complain about. -/
inductive Warning where
  /-- A closing mark without an opening one stands at the offset. -/
  | strayClose (offset : Nat)
  /-- This many blocks are still open at the end. -/
  | unclosed (depth : Nat)
  deriving DecidableEq

/-- The wording of a warning. -/
def Warning.message : Warning → String
  | .strayClose offset => "Unmatched '\x7d' at offset " ++ toString offset ++ " ends the program"
  | .unclosed depth => "Unclosed '\x7b' at end of input (depth " ++ toString depth ++ ")"

/-- What tokens can be read as: a value in which infinities, and marks for what is no number, may stand
where numbers do. -/
inductive Item where
  | number (n : Decimal.Extended)
  | symbol (name : String)
  | block (items : List Item)

/-- What a reader makes of tokens and of what stands between marks. -/
structure Builder (α : Type) where
  number : String → Except Fault α
  symbol : String → α
  block : List α → α

/-- Takes a number that can be stored. -/
def store (n : Decimal) : Except Fault Decimal :=
  if Decimal.Range.stored.contains n then .ok n else .error .numberOutOfRange

theorem store_of_contains {n : Decimal} (h : Decimal.Range.stored.contains n = true) :
    store n = .ok n :=
  if_pos h

theorem store_of_not_contains {n : Decimal} (h : ¬ Decimal.Range.stored.contains n = true) :
    store n = .error .numberOutOfRange :=
  if_neg h

/-- Makes values. The numbers are those that can be stored. -/
def Builder.values : Builder Value where
  number text :=
    match Decimal.ofText? text with
    | some n => (store n).map .number
    | none => .error .malformedNumber
  symbol := .symbol
  block := .block

@[simp] theorem Builder.values_symbol (name : String) : values.symbol name = .symbol name := rfl

@[simp] theorem Builder.values_block (items : List Value) : values.block items = .block items := rfl

@[simp] theorem Builder.values_number {text : String} {n : Decimal}
    (h : Decimal.ofText? text = some n) : values.number text = (store n).map .number := by
  simp only [values, h]

/-- Makes items. All that can stand where numbers do is taken, a number itself if it can be stored. -/
def Builder.items : Builder Item where
  number text :=
    match Decimal.Extended.ofText? text with
    | some (.finite n) => (store n).map fun n => .number (.finite n)
    | some special => .ok (.number special)
    | none => .error .malformedNumber
  symbol := .symbol
  block := .block

/-- What reading gives: the program, the tokens behind its end, and a warning if the nesting is
wrong. -/
structure Reading (α : Type) where
  program : List α
  rest : List Token
  warning? : Option Warning

section

variable {α : Type} (build : Builder α)

/-- Closes all open blocks. The levels outside the current one are listed from the inside out. -/
def closeAll (current : List α) : List (List α) → List α
  | [] => current
  | outer :: more => closeAll (build.block current :: outer) more

/-- Reads on with the values of the current level and of the levels around it, from the inside
out; the values of each level are in stored order. -/
def readFrom (current : List α) (levels : List (List α)) : List Token → Except Fault (Reading α)
  | [] =>
    let warning? := if levels.isEmpty then none else some (.unclosed levels.length)
    .ok ⟨closeAll build current levels, [], warning?⟩
  | token :: rest =>
    match token.kind with
    | .number =>
      match build.number token.text with
      | .ok v => readFrom (v :: current) levels rest
      | .error fault => .error fault
    | .word => readFrom (build.symbol token.text :: current) levels rest
    | .quoteOpen => readFrom [] (current :: levels) rest
    | .quoteClose =>
      match levels with
      | [] => .ok ⟨current, rest, some (.strayClose token.start)⟩
      | outer :: more => readFrom (build.block current :: outer) more rest
    | .blank | .other _ => readFrom current levels rest

end

/-- Reads tokens of any source. A number token that stands for no number, or for one that cannot be
stored, is a fault. -/
def ofTokens (tokens : List Token) : Except Fault (Reading Item) :=
  readFrom .items [] [] tokens

/-- Reads a program text. The tokens of a text stand for nothing but numbers where they are number
tokens, so the program is one of values. -/
def ofSource (source : String) : Except Fault (Reading Value) :=
  readFrom .values [] [] (Token.scan source)

end QuoteStack.Program
