import QuoteStack.CommandLine.Arguments
import QuoteStack.CommandLine.Folder
import QuoteStack.Logging.Hub
import QuoteStack.Machine.Source
import QuoteStack.Settings
import QuoteStack.Text.Lines
import QuoteStack.Text.Utf8
import QuoteStack.Value.Json

/-!
The command: runs one program and writes the stack that it leaves, one value a line or as JSON.
Results go to standard output; what programs print, log lines and faults go to standard error in
the order in which they arise.
-/

namespace QuoteStack.CommandLine

/-- What the command finds around it. -/
structure Surroundings where
  /-- The way in which arguments are read. -/
  dialect : Dialect
  /-- The variables of the process. -/
  processVariable? : String → Option String
  /-- The text on standard input, or the reason why it cannot be read. -/
  input : Except String String
  /-- What paths lead to. -/
  files : String → Option Entry
  /-- The limits of the host; nesting and precision are up to the settings. -/
  limits : Limits := {}
  /-- How deep values may be nested that can be written as JSON. -/
  jsonDepth : Nat
  /-- What log records have besides their texts. -/
  particulars : Logging.Particulars
  /-- What a log record tells of a fault, behind its line. -/
  trace : Fault → String

/-- What the command leaves: the exit code and what it has written. -/
structure Report where
  exitCode : Nat
  output : String
  errors : String

/-- How the command is called. -/
def usage : String :=
  "usage: ifexpr [-h] [-e EXPR] [--json] [--max-depth MAX_DEPTH] [--log-level LOG_LEVEL] [path]\n"

/-- The report of refused arguments. -/
def refusal (fault : UsageFault) : Report :=
  ⟨2, "", "ifexpr: error: " ++ fault.message ++ "\n"⟩

/-- The line of a fault. -/
def faultLine (message : String) : String :=
  "Error: " ++ message ++ "\n"

/-- Why a program cannot be read. -/
inductive SourceFault where
  | notFound (path : String)
  | isFolder (path : String)
  | unreadable (path reason : String)
  | notText (path : String) (fault : Text.Utf8Fault)

/-- The wording of a fault of reading. -/
def SourceFault.message : SourceFault → String
  | .notFound path => "File '" ++ path ++ "' not found."
  | .isFolder path =>
    "cannot read '" ++ path ++ "': [Errno 21] Is a directory: " ++ Text.quote path
  | .unreadable path reason => "cannot read '" ++ path ++ "': " ++ reason
  | .notText path fault => "cannot read '" ++ path ++ "': " ++ fault.message

/-- The path that stands for standard input. -/
def inputPath : String := "-"

/-- The program text at a path, or on standard input. -/
def readPath (surroundings : Surroundings) (path : String) : Except SourceFault String :=
  if path == inputPath then
    match surroundings.input with
    | .ok text => .ok text
    | .error reason => .error (.unreadable path reason)
  else
    match surroundings.files path with
    | none => .error (.notFound path)
    | some .folder => .error (.isFolder path)
    | some (.unreadable reason) => .error (.unreadable path reason)
    | some (.file bytes) =>
      match Text.ofUtf8 bytes with
      | .ok text => .ok (String.ofList (Text.unifyLineEnds text))
      | .error fault => .error (.notText path fault)

/-- A log record as a line, if it passes the threshold. -/
def recordLine? (particulars : Logging.Particulars) (threshold : Severity) (record : Record) :
    Option String :=
  if threshold ≤ record.severity then
    (Logging.Format.standard.fill? particulars record).map (· ++ "\n")
  else none

/-- An event as a line on standard error. -/
def eventLine? (particulars : Logging.Particulars) (threshold : Severity) (event : Event) :
    Option String :=
  match event.line? with
  | some line => some (line ++ "\n")
  | none => event.record? >>= recordLine? particulars threshold

/-- The log record of a program that failed. -/
def failureRecord : Record :=
  ⟨"ifexpr.cli", .debug, "program failed"⟩

/-- What is logged of a fault. -/
def failureLines (surroundings : Surroundings) (threshold : Severity) (fault : Fault) : String :=
  match recordLine? surroundings.particulars threshold failureRecord with
  | some line => line ++ surroundings.trace fault ++ "\n"
  | none => ""

/-- Whether blocks are nested in a value at most so deep. -/
def nestsWithin : Nat → Value → Bool
  | _, .number _ | _, .symbol _ => true
  | 0, .block _ => false
  | depth + 1, .block items => items.all (nestsWithin depth)

/-- Writes the stack that a program leaves, bottom first. -/
def writeStack (jsonDepth : Nat) (json : Bool) (values : List Value) : Except String String :=
  if json then
    if values.all (nestsWithin jsonDepth) then .ok ((Value.block values).toJson ++ "\n")
    else .error "stack is nested too deeply for JSON output"
  else .ok (String.join (values.map fun v => v.render ++ "\n"))

/-- Runs a program text and reports. -/
def runText (surroundings : Surroundings) (limits : Limits) (threshold : Severity) (json : Bool)
    (source : String) : Report :=
  let outcome := runProgram limits source
  let written :=
    String.join (outcome.events.filterMap (eventLine? surroundings.particulars threshold))
  match outcome.fault? with
  | some fault =>
    let failure := failureLines surroundings threshold fault
    ⟨1, "", written ++ failure ++ faultLine fault.message⟩
  | none =>
    match writeStack surroundings.jsonDepth json outcome.machine.values with
    | .ok output => ⟨0, output, written⟩
    | .error message => ⟨1, "", written ++ faultLine message⟩

/-- The level from which on records are written, for a level as it is set. -/
def thresholdOf (level : Severity) : Severity :=
  if level = 0 then .warning else level

/-- Why the command ends without a report. -/
inductive Breakdown where
  | level (fault : Logging.LevelFault)
  /-- The option for the limit on nesting is given nothing. -/
  | depthMissing
  /-- The option for the program text is given nothing. -/
  | expressionMissing

/-- The wording of a breakdown. -/
def Breakdown.message : Breakdown → String
  | .level fault => fault.message
  | .depthMissing => "'<' not supported between instances of 'list' and 'int'"
  | .expressionMissing => "expected string or bytes-like object, got 'list'"

/-- The limit on nesting: that of the options, or else that of the settings. -/
def chooseDepth (options : Options) (settings : Settings) : Except Breakdown Text.ShortInteger :=
  match options.maxDepth? with
  | some (.value depth) => .ok depth
  | some .nothing => .error .depthMissing
  | none => .ok settings.maxDepth

/-- The level from which on records are written: that of the options unless it is empty, or else
that of the settings. -/
def chooseThreshold (options : Options) (settings : Settings) : Except Breakdown Severity :=
  let given := options.logLevel?.getD ""
  let logLevel := if given.isEmpty then settings.logLevel else given
  match Logging.readLevel .warning (.text logLevel) with
  | .ok level => .ok (thresholdOf level)
  | .error fault => .error (.level fault)

/-- The program text that the options ask for. -/
def readProgram (surroundings : Surroundings) (options : Options) :
    Except Breakdown (Except SourceFault String) :=
  match options.expression? with
  | some (.value text) => .ok (.ok text)
  | some .nothing => .error .expressionMissing
  | none => .ok (readPath surroundings (options.path?.getD ""))

/-- Runs the command with options. -/
def runOptions (surroundings : Surroundings) (options : Options) : Except Breakdown Report := do
  let (settings, _) := Settings.load surroundings.processVariable?
  let maxDepth ← chooseDepth options settings
  if maxDepth.value < 1 then .ok (refusal .depthNotPositive)
  else
    let threshold ← chooseThreshold options settings
    match ← readProgram surroundings options with
    | .error fault => .ok ⟨1, "", faultLine fault.message⟩
    | .ok source =>
      let limits :=
        { surroundings.limits with maxDepth := maxDepth.value, precision := settings.precision }
      .ok (runText surroundings limits threshold options.json source)

/-- The path that the command reads the program from, if it reads it from one. -/
def programPath? (dialect : Dialect) (arguments : List String) : Option String :=
  match readArguments dialect arguments with
  | .ok (.run options) => options.path?
  | _ => none

/-- Runs the command. -/
def run (surroundings : Surroundings) (arguments : List String) : Except Breakdown Report :=
  match readArguments surroundings.dialect arguments with
  | .error fault => .ok (refusal fault)
  | .ok .help => .ok ⟨0, usage, ""⟩
  | .ok (.run options) => runOptions surroundings options

end QuoteStack.CommandLine
