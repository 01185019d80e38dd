import Mathlib.Logic.Basic
import QuoteStack.CommandLine.Run

/-!
The program: gathers what the command finds around it, runs the command, and writes its report.
-/

namespace QuoteStack.CommandLine

/-- How the failure to open or read a path is told. -/
def reasonOf (path : String) : IO.Error → String
  | .permissionDenied _ code details | .resourceExhausted _ code details
  | .invalidArgument _ code details | .noSuchThing _ code details
  | .resourceBusy code details | .hardwareFault code details | .otherError code details =>
    "[Errno " ++ toString code ++ "] " ++ details ++ ": " ++ Text.quote path
  | error => toString error

/-- What is at a path of the file system. -/
def readEntry? (path : String) : IO (Option Entry) := do
  try
    return some (.file (← IO.FS.readBinFile path).toList)
  catch
    | .noFileOrDirectory _ _ _ => return none
    -- the system reports a folder that is read as a file with this code
    | .inappropriateType _ 21 _ => return some .folder
    | error => return some (.unreadable (reasonOf path error))

/-- Reads standard input, with its line ends as programs see them. -/
def readInput : IO (Except String String) := do
  let bytes ← (← IO.getStdin).readBinToEnd
  match Text.ofUtf8 bytes.toList with
  | .ok text => return .ok (String.ofList (Text.unifyLineEnds text))
  | .error fault => return .error fault.message

/-- What log records have besides their texts: the time at which the program starts. -/
def readParticulars : IO Logging.Particulars := do
  let now ← Std.Time.PlainDateTime.now
  let time := now.format "uuuu-MM-dd HH:mm:ss,SSS"
  return {
    time := fun _ => time
    field? := fun _ _ => none
    whole := fun _ _ => none
    number := fun _ _ => none
    maxLength := ({} : Limits).memory
    report := fun _ => "" }

/-- How deep the program nests the JSON that it writes. -/
def jsonDepth : Nat := 490

/-- Gathers the settings, and the program text from where the arguments say. -/
def gather (arguments : List String) : IO Surroundings := do
  let dialect := Dialect.newer
  let settings ← Settings.names.filterMapM fun name => do
    return (← IO.getEnv name).map (name, ·)
  let path? := programPath? dialect arguments
  let input ← if path? == some inputPath then readInput else pure (.ok "")
  let entry? ←
    match path? with
    | some path => readEntry? path
    | none => pure none
  return {
    dialect
    processVariable? := fun name => settings.lookup name
    input
    files := fun path => if some path == path? then entry? else none
    jsonDepth
    particulars := ← readParticulars
    trace := Fault.message }

end QuoteStack.CommandLine

/-- Runs the command with the arguments of the process. -/
def main (arguments : List String) : IO UInt32 := do
  let surroundings ← QuoteStack.CommandLine.gather arguments
  match QuoteStack.CommandLine.run surroundings arguments with
  | .ok report =>
    IO.print report.output
    IO.eprint report.errors
    return report.exitCode.toUInt32
  | .error fault =>
    IO.eprintln fault.message
    return 1
