import QuoteStack.Program

/-!
The journal of a run: the lines that programs print, and the log records of what happens, in the
order in which they arise.
-/

namespace QuoteStack

/-- A numeric severity with the names of the usual ones. -/
abbrev Severity := Int

namespace Severity

def debug : Severity := 10
def warning : Severity := 30

/-- The name of a severity; one without a name of its own is called by its number. -/
def name (severity : Severity) : String :=
  if severity = 50 then "CRITICAL"
  else if severity = 40 then "ERROR"
  else if severity = 30 then "WARNING"
  else if severity = 20 then "INFO"
  else if severity = 10 then "DEBUG"
  else if severity = 0 then "NOTSET"
  else "Level " ++ toString severity

end Severity

/-- The name that all loggers of the program start with. -/
def packageLogger : String := "ifexpr"

/-- A log record: who logs, how severe it is, and the text. -/
structure Record where
  logger : String
  severity : Severity
  message : String
  deriving DecidableEq

/-- What can happen in a run. -/
inductive Event where
  /-- A program prints a line. -/
  | printed (line : String)
  /-- A program text has wrong nesting. -/
  | warned (warning : Program.Warning)
  /-- A program with this many values at its top level starts. -/
  | started (count : Nat)
  /-- A stored program is run by its name. -/
  | entered (name : String)
  /-- An external procedure is called by its name. -/
  | called (name : String)
  /-- A value is about to be printed. -/
  | shown (text : String)
  /-- A closure has been given a name. -/
  | closed (name : String)
  deriving DecidableEq

namespace Event

/-- The log record of an event; printing leaves none. -/
def record? : Event → Option Record
  | .printed _ => none
  | .warned warning => some ⟨"ifexpr.parse", .warning, warning.message⟩
  | .started count =>
    some ⟨"ifexpr.runtime", .debug, "executing " ++ toString count ++ " top-level values"⟩
  | .entered name => some ⟨"ifexpr.engine", .debug, "exec " ++ name⟩
  | .called name => some ⟨"ifexpr.engine", .debug, "call " ++ name⟩
  | .shown text => some ⟨"ifexpr.primitives", .debug, "dbg: " ++ text⟩
  | .closed name => some ⟨"ifexpr.primitives", .debug, "do: registered " ++ name⟩

/-- The line that an event prints. -/
def line? : Event → Option String
  | .printed line => some line
  | _ => none

/-- The text that the events print, each line ended. -/
def printedText (events : List Event) : String :=
  String.join ((events.filterMap line?).map (· ++ "\n"))

/-- The log records of the events that are at least as severe as the threshold. -/
def records (threshold : Severity) (events : List Event) : List Record :=
  (events.filterMap record?).filter fun record => threshold ≤ record.severity

end Event

end QuoteStack
