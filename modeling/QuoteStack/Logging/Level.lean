import QuoteStack.Journal
import QuoteStack.Text.Numeral
import QuoteStack.Text.Quoted
import QuoteStack.Text.UpperCase

/-!
Log levels as users give them: as a number, as a text that spells a number or a name, or not at
all.
-/

namespace QuoteStack.Logging

/-- A log level as it is given. -/
inductive LevelForm where
  | missing
  | number (n : Int)
  | text (s : String)

/-- Why a text that consists of digit signs is no number. -/
inductive LevelFault where
  /-- Not all of its digit signs are decimal digits. -/
  | malformed (text : String)
  /-- It has more digits than a numeral may have. -/
  | tooLong (digits : Nat)
  deriving DecidableEq

/-- How many characters of a quoted text a message shows at most. -/
def shownLength : Nat := 200

/-- The wording of a fault. -/
def LevelFault.message : LevelFault → String
  | .malformed text =>
    "invalid literal for int() with base 10: " ++
      String.ofList ((Text.quoted text.toList).take shownLength)
  | .tooLong digits =>
    "Exceeds the limit (" ++ toString Text.maxNumeralDigits ++
      " digits) for integer string conversion: value has " ++ toString digits ++
      " digits; use sys.set_int_max_str_digits() to increase the limit"

/-- The levels that have names. -/
def namedLevels : List (String × Severity) :=
  [("CRITICAL", 50), ("FATAL", 50), ("ERROR", 40), ("WARNING", 30), ("WARN", 30), ("INFO", 20),
    ("DEBUG", 10), ("NOTSET", 0)]

/-- Reads a level. A text counts without the blanks around it and in upper case: digit signs spell
a number, a name stands for its level, and anything else for the default. -/
def readLevel (default : Severity) : LevelForm → Except LevelFault Severity
  | .missing => .ok default
  | .number n => .ok n
  | .text s =>
    let text := Text.upperCase (Text.trim s.toList)
    if !text.isEmpty && text.all Text.isDigitSign then
      match Text.readInteger text with
      | .ok n => .ok n
      | .error .malformed => .error (.malformed (String.ofList text))
      | .error (.tooLong digits) => .error (.tooLong digits)
    else .ok ((namedLevels.lookup (String.ofList text)).getD default)

end QuoteStack.Logging
