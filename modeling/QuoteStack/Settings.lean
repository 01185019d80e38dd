import QuoteStack.Journal
import QuoteStack.Text.Numeral
import QuoteStack.Text.Quoted
import QuoteStack.Text.UpperCase

/-!
Settings from named texts, such as the variables of a process. A limit that cannot be read or is
not positive is replaced by its default, with a warning; a missing or blank one without.
-/

namespace QuoteStack

/-- The settings of a run. -/
structure Settings where
  maxDepth : Text.ShortInteger := .ofNat 128
  precision : Int := 34
  logLevel : String := "WARNING"
  deriving DecidableEq

namespace Settings

/-- Why a setting was replaced by its default. -/
inductive Warning where
  | notInteger (name text : String) (used : Int)
  | notPositive (name : String) (value used : Int)
  deriving DecidableEq

/-- The wording of a warning. -/
def Warning.message : Warning → String
  | .notInteger name text used =>
    name ++ "=" ++ Text.quote text ++ " is not an integer; using " ++ toString used
  | .notPositive name value used =>
    name ++ "=" ++ toString value ++ " must be positive; using " ++ toString used

/-- The log record of a warning. -/
def Warning.record (warning : Warning) : Record :=
  ⟨"ifexpr.config", .warning, warning.message⟩

/-- Reads a positive limit. -/
def readLimit (name : String) (text? : Option String) (default : Text.ShortInteger) :
    Text.ShortInteger × Option Warning :=
  match text? with
  | none => (default, none)
  | some text =>
    let trimmed := Text.trim text.toList
    if trimmed.isEmpty then (default, none)
    else
      match Text.readNumeral trimmed with
      | .error _ => (default, some (.notInteger name text default))
      | .ok value =>
        if value.value < 1 then (default, some (.notPositive name value default)) else (value, none)

/-- Reads the name of a log level; an empty text counts as missing, a blank one does not. -/
def readLogLevel (text? : Option String) : String :=
  let text := text?.getD ""
  let chosen := if text.isEmpty then "WARNING" else text
  String.ofList (Text.upperCase (Text.trim chosen.toList))

def maxDepthName : String := "IFEXPR_MAX_DEPTH"
def precisionName : String := "IFEXPR_DIVISION_PRECISION"
def logLevelName : String := "IFEXPR_LOG_LEVEL"

/-- The names of all settings. -/
def names : List String :=
  [maxDepthName, precisionName, logLevelName]

/-- Reads the settings from a look-up of texts by name. -/
def load (lookup : String → Option String) : Settings × List Warning :=
  let (maxDepth, depthWarning?) := readLimit maxDepthName (lookup maxDepthName) (.ofNat 128)
  let (precision, precisionWarning?) := readLimit precisionName (lookup precisionName) (.ofNat 34)
  ({ maxDepth, precision := precision.value, logLevel := readLogLevel (lookup logLevelName) },
    depthWarning?.toList ++ precisionWarning?.toList)

end Settings

end QuoteStack
