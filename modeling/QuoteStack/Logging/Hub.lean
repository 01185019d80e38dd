import QuoteStack.Logging.Format
import QuoteStack.Logging.Level

/-!
The package logger: which handlers are attached to it, from which level on it lets records pass,
and what has been written to each stream. Setting it up replaces the handler of the last set-up and
leaves the handlers of others alone.
-/

namespace QuoteStack.Logging

/-- A handler of log records. Streams are told apart by numbers; handlers may share one. -/
inductive Handler where
  /-- Keeps silent, so that an unconfigured logger is not reported. -/
  | silent
  /-- Made by setting up: writes lines of a form to a stream. -/
  | own (stream : Nat) (format : Format)
  /-- Attached by somebody else: writes messages to a stream. -/
  | foreign (stream : Nat)
  deriving DecidableEq

namespace Handler

/-- Whether setting up replaces the handler. -/
def isReplaced : Handler → Bool
  | .silent | .own _ _ => true
  | .foreign _ => false

/-- The stream that a record goes to and what is written there. If no line can be written in the form
of a handler, that is reported on the stream for errors instead. -/
def output? (particulars : Particulars) (errorStream : Nat) (record : Record) :
    Handler → Option (Nat × String)
  | .silent => none
  | .own stream format =>
    match format.fill? particulars record with
    | some line => some (stream, line ++ "\n")
    | none => some (errorStream, particulars.report record)
  | .foreign stream => some (stream, record.message ++ "\n")

end Handler

/-- Why logging cannot be set up. -/
inductive SetupFault where
  /-- A text describes no form of log lines. -/
  | format (text : String)
  | level (fault : LevelFault)
  deriving DecidableEq

/-- The wording of a fault. -/
def SetupFault.message : SetupFault → String
  | .format text => "Invalid format '" ++ text ++ "' for '%' style"
  | .level fault => fault.message

/-- Why a record cannot be made. -/
inductive RecordFault where
  /-- Its level has no name, and too many digits to be called by its number. -/
  | longLevel
  deriving DecidableEq

/-- The wording of a fault. -/
def RecordFault.message : RecordFault → String
  | .longLevel => Text.longInteger

/-- The state of the package logger. -/
structure Hub where
  handlers : List Handler := [.silent]
  level : Severity := 0
  /-- Whether records are passed on to the handlers of the whole process too. -/
  propagates : Bool := true
  /-- The stream on which the process reports errors. -/
  errorStream : Nat := 0
  /-- What has been written to each stream. -/
  written : Nat → String := fun _ => ""

namespace Hub

/-- The form of log lines that is asked for; an empty text counts as missing. -/
def formatOf (text? : Option String) : Except SetupFault Format :=
  let text := text?.getD ""
  if text.isEmpty then .ok .standard
  else
    match Format.ofText? text with
    | some format => .ok format
    | none => .error (.format text)

/-- Sets up logging on a stream, or else on the stream for errors. The old handler goes first; if
then there is no form of log lines, no handler takes its place, and if the level cannot be read, a
handler does. Either way level and propagation stay as they were. -/
def configure (hub : Hub) (level : LevelForm) (format? : Option String) (stream? : Option Nat) :
    Option SetupFault × Hub :=
  let cleared :=
    { hub with handlers := hub.handlers.filter fun handler => !handler.isReplaced }
  match formatOf format? with
  | .error fault => (some fault, cleared)
  | .ok format =>
    let own := Handler.own (stream?.getD hub.errorStream) format
    let replaced := { cleared with handlers := cleared.handlers ++ [own] }
    match readLevel .warning level with
    | .ok level => (none, { replaced with level, propagates := false })
    | .error fault => (some (.level fault), replaced)

/-- Asks for a logger. The package logger gets a silent handler if it has none. -/
def request (hub : Hub) : Hub :=
  if hub.handlers.isEmpty then { hub with handlers := [.silent] } else hub

/-- The level from which on records pass: the package's, or the process's if the package has
none. -/
def threshold (hub : Hub) : Severity :=
  if hub.level = 0 then .warning else hub.level

/-- Whether a logger is the package logger or below it. -/
def isInPackage (logger : String) : Bool :=
  logger == packageLogger || (packageLogger ++ ".").toList.isPrefixOf logger.toList

/-- Whether a record passes. -/
def passes (hub : Hub) (record : Record) : Bool :=
  isInPackage record.logger && 0 < record.severity && hub.threshold ≤ record.severity

/-- Writes a text to a stream. -/
def write (written : Nat → String) (output : Nat × String) : Nat → String := fun stream =>
  if stream = output.1 then written stream ++ output.2 else written stream

/-- Asks for the logger of a record and logs the record. -/
def log (hub : Hub) (particulars : Particulars) (record : Record) : Option RecordFault × Hub :=
  let hub := hub.request
  if !hub.passes record then (none, hub)
  else if ¬ Text.IsShort record.severity then (some .longLevel, hub)
  else
    let outputs := hub.handlers.filterMap (·.output? particulars hub.errorStream record)
    (none, { hub with written := outputs.foldl write hub.written })

/-- Attaches a handler of somebody else. -/
def attach (hub : Hub) (stream : Nat) : Hub :=
  { hub with handlers := hub.handlers ++ [.foreign stream] }

/-- From now on the process reports errors on another stream. -/
def redirect (hub : Hub) (stream : Nat) : Hub :=
  { hub with errorStream := stream }

/-- Forgets all handlers and the set-up; the streams keep what was written. -/
def reset (hub : Hub) : Hub :=
  { hub with handlers := [], level := 0, propagates := true }

end Hub

end QuoteStack.Logging
