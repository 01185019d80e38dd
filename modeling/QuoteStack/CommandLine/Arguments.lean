import QuoteStack.Text.Numeral
import QuoteStack.Text.Quoted

/-!
The arguments of the command. A program is given by an option or by a path, not by both. Long
options may be shortened as long as they stay unambiguous, and take their value after an equals
sign or as the next argument; short ones take it directly behind them too. After a separator all
arguments are values. Readers of arguments come in two dialects, which differ in a separator that is
attached to an option and in what may stand behind a letter.
-/

namespace QuoteStack.CommandLine

/-- The ways in which arguments are read. -/
inductive Dialect where
  /-- A separator that is attached to an option is dropped; behind the letter of an option without a
  value there may be letters of options only. -/
  | older
  /-- A separator that is attached to an option is its value; what is behind the letter of an option
  without a value and is no option is an argument that nothing can be done with. -/
  | newer
  deriving DecidableEq

/-- The options of the command. -/
inductive Flag where
  | help
  | expression
  | json
  | maxDepth
  | logLevel
  deriving DecidableEq

namespace Flag

/-- All options, in the order in which they are listed to the user. -/
def all : List Flag :=
  [.help, .expression, .json, .maxDepth, .logLevel]

/-- The letter of an option, if it has one. -/
def short? : Flag → Option Char
  | .help => some 'h'
  | .expression => some 'e'
  | .json | .maxDepth | .logLevel => none

/-- The long form of an option. -/
def long : Flag → String
  | .help => "--help"
  | .expression => "--expr"
  | .json => "--json"
  | .maxDepth => "--max-depth"
  | .logLevel => "--log-level"

/-- Whether an option has a value. -/
def takesValue : Flag → Bool
  | .help | .json => false
  | .expression | .maxDepth | .logLevel => true

/-- What an option is called in messages. -/
def title (flag : Flag) : String :=
  match flag.short? with
  | some letter => "-" ++ letter.toString ++ "/" ++ flag.long
  | none => flag.long

/-- The option of a letter. -/
def ofLetter? (letter : Char) : Option Flag :=
  all.find? fun flag => flag.short? == some letter

/-- The option that a text spells in full. -/
def ofText? (text : List Char) : Option Flag :=
  match text with
  | ['-', letter] => ofLetter? letter
  | _ => all.find? fun flag => flag.long.toList == text

/-- The options whose long form starts with a text. -/
def startingWith (text : List Char) : List Flag :=
  all.filter fun flag => text.isPrefixOf flag.long.toList

end Flag

/-- What the path to a program is called in messages. -/
def pathTitle : String := "path"

/-- Why arguments are refused. -/
inductive UsageFault where
  | ambiguous (argument : String) (flags : List Flag)
  | valueExpected (flag : Flag)
  | valueIgnored (flag : Flag) (value : String)
  | notInteger (flag : Flag) (value : String)
  /-- The program is given by an option after a path. -/
  | expressionAfterPath
  /-- The program is given by a path after an option. -/
  | pathAfterExpression
  | programMissing
  | unrecognized (arguments : List String)
  | depthNotPositive

/-- The wording of a message about one argument. -/
def aboutArgument (title message : String) : String :=
  "argument " ++ title ++ ": " ++ message

/-- The wording of a refusal. -/
def UsageFault.message : UsageFault → String
  | .ambiguous argument flags =>
    "ambiguous option: " ++ argument ++ " could match " ++
      ", ".intercalate (flags.map Flag.long)
  | .valueExpected flag => aboutArgument flag.title "expected one argument"
  | .valueIgnored flag value =>
    aboutArgument flag.title ("ignored explicit argument " ++ Text.quote value)
  | .notInteger flag value =>
    aboutArgument flag.title ("invalid int value: " ++ Text.quote value)
  | .expressionAfterPath =>
    aboutArgument Flag.expression.title ("not allowed with argument " ++ pathTitle)
  | .pathAfterExpression =>
    aboutArgument pathTitle ("not allowed with argument " ++ Flag.expression.title)
  | .programMissing =>
    "one of the arguments " ++ Flag.expression.title ++ " " ++ pathTitle ++ " is required"
  | .unrecognized arguments => "unrecognized arguments: " ++ " ".intercalate arguments
  | .depthNotPositive => "--max-depth must be positive"

/-- What is written together with an option. -/
structure Attached where
  /-- Whether the option is given by its letter. -/
  toLetter : Bool
  /-- Whether there is an equals sign before it. -/
  behindEquals : Bool
  text : List Char

/-- An argument by its form. -/
inductive Argument where
  | value (text : String)
  | flag (flag : Flag) (attached? : Option Attached)
  /-- It looks like an option, and there is no such option. -/
  | unknown (text : String)
  | separator (rest : List String)

/-- Splits a text at its first equals sign. -/
def splitAtEquals? (text : List Char) : Option (List Char × List Char) :=
  match text.span (· != '=') with
  | (before, _ :: after) => some (before, after)
  | (_, []) => none

/-- Whether a text has the form of a negative number: a minus and digits, possibly with a point
that has digits behind it. -/
def isNegativeNumber (text : List Char) : Bool :=
  let isDigit (c : Char) : Bool := (Text.digitValue? c).isSome
  match text with
  | '-' :: body =>
    let body := if body.getLast? == some '\n' then body.dropLast else body
    match body.span isDigit with
    | (digits, []) => !digits.isEmpty
    | (_, '.' :: places) => !places.isEmpty && places.all isDigit
    | _ => false
  | _ => false

/-- The form of an argument that is not a separator. -/
def Argument.ofText (text : String) : Except UsageFault Argument :=
  let chars := text.toList
  let otherwise : Argument :=
    if isNegativeNumber chars || chars.contains ' ' then .value text else .unknown text
  match chars with
  | '-' :: second :: rest =>
    match Flag.ofText? chars with
    | some option => .ok (.flag option none)
    | none =>
      let split? := splitAtEquals? chars
      match split? >>= fun (before, after) => (Flag.ofText? before).map (·, after) with
      | some (option, after) => .ok (.flag option (some ⟨second != '-', true, after⟩))
      | none =>
        if second == '-' then
          match Flag.startingWith ((split?.map (·.1)).getD chars) with
          | [] => .ok otherwise
          | [option] => .ok (.flag option (split?.map fun (_, after) => ⟨false, true, after⟩))
          | options => .error (.ambiguous text options)
        else
          match Flag.ofLetter? second with
          | some option => .ok (.flag option (some ⟨true, false, rest⟩))
          | none => .ok otherwise
  | _ => .ok (.value text)

/-- The argument behind which all others are values. -/
def separator : String := "--"

/-- The forms of all arguments up to a separator. -/
def classify : List String → Except UsageFault (List Argument)
  | [] => .ok []
  | text :: rest =>
    if text == separator then .ok [.separator rest]
    else
      match Argument.ofText text, classify rest with
      | .ok argument, .ok arguments => .ok (argument :: arguments)
      | .error fault, _ => .error fault
      | _, .error fault => .error fault

/-- What an option is given. -/
inductive Given (α : Type) where
  | value (a : α)
  /-- What was attached to the option has been dropped. -/
  | nothing

/-- What an option with a value is given by what is attached to it. -/
def Attached.given (dialect : Dialect) (attached : Attached) : Given String :=
  if dialect == .older && attached.text == separator.toList then .nothing
  else .value (String.ofList attached.text)

/-- What the arguments ask for. -/
structure Options where
  expression? : Option (Given String) := none
  path? : Option String := none
  json : Bool := false
  maxDepth? : Option (Given Text.ShortInteger) := none
  logLevel? : Option String := none

/-- The state of reading arguments. -/
structure Progress where
  options : Options := {}
  /-- Help was asked for, and nothing after that counts. -/
  help : Bool := false
  /-- Arguments that nothing can be done with. -/
  extras : List String := []

namespace Progress

/-- Takes the path to the program. -/
def takePath (progress : Progress) (path : String) : Except UsageFault Progress :=
  if progress.options.expression?.isSome then .error .pathAfterExpression
  else .ok { progress with options := { progress.options with path? := some path } }

/-- Takes an option with what it is given. A log level that is nothing counts as missing. -/
def takeGiven (progress : Progress) (flag : Flag) (given : Given String) :
    Except UsageFault Progress :=
  let options := progress.options
  match flag, given with
  | .expression, given =>
    if options.path?.isSome then .error .expressionAfterPath
    else .ok { progress with options := { options with expression? := some given } }
  | .maxDepth, .value text =>
    match Text.readNumeral text.toList with
    | .ok depth =>
      .ok { progress with options := { options with maxDepth? := some (.value depth) } }
    | .error _ => .error (.notInteger flag text)
  | .maxDepth, .nothing =>
    .ok { progress with options := { options with maxDepth? := some .nothing } }
  | .logLevel, .value text =>
    .ok { progress with options := { options with logLevel? := some text } }
  | .logLevel, .nothing => .ok { progress with options := { options with logLevel? := none } }
  | .help, _ | .json, _ => .ok progress

/-- Takes an option without a value. -/
def takeFlag (progress : Progress) (flag : Flag) : Progress :=
  match flag with
  | .json => { progress with options := { progress.options with json := true } }
  | .help => { progress with help := true }
  | .expression | .maxDepth | .logLevel => progress

/-- Adds arguments that nothing can be done with. -/
def addExtras (progress : Progress) (arguments : List String) : Progress :=
  { progress with extras := progress.extras ++ arguments }

end Progress

/-- Checks what is attached to the letter of an option that has no value. It may be further letters,
each an option of its own: one with a value takes the rest, or else the next argument if that is a
value. -/
def checkLetters (dialect : Dialect) (nextIsValue : Bool) (flag : Flag) (behindEquals : Bool) :
    List Char → Except UsageFault Unit
  | [] => .error (.valueIgnored flag "")
  | letter :: rest =>
    let ignored := UsageFault.valueIgnored flag (String.ofList (letter :: rest))
    if dialect == .newer && (behindEquals || letter == '-') then .error ignored
    else
      match Flag.ofLetter? letter, rest with
      | none, _ =>
        match dialect with
        | .older => .error ignored
        | .newer => .ok ()
      | some other, [] =>
        if other.takesValue && !nextIsValue then .error (.valueExpected other) else .ok ()
      | some other, next :: more =>
        if other.takesValue then .ok ()
        else if dialect == .newer && next == '=' then
          checkLetters dialect nextIsValue other true more
        else checkLetters dialect nextIsValue other false (next :: more)

/-- Checks what is attached to an option that has no value. -/
def checkAttached (dialect : Dialect) (nextIsValue : Bool) (flag : Flag) (attached : Attached) :
    Except UsageFault Unit :=
  if attached.toLetter then
    checkLetters dialect nextIsValue flag attached.behindEquals attached.text
  else .error (.valueIgnored flag (String.ofList attached.text))

/-- Reads arguments in order. The first value that belongs to no option is the path; a separator
directly before or behind it is not counted. -/
def readFrom (dialect : Dialect) (progress : Progress) :
    List Argument → Except UsageFault Progress
  | [] => .ok progress
  | .value text :: more =>
    if progress.options.path?.isSome then readFrom dialect (progress.addExtras [text]) more
    else
      match progress.takePath text, more with
      | .error fault, _ => .error fault
      | .ok progress, .separator rest :: _ => .ok (progress.addExtras rest)
      | .ok progress, more => readFrom dialect progress more
  | .separator rest :: _ =>
    if progress.options.path?.isSome then .ok (progress.addExtras (separator :: rest))
    else
      match rest with
      | [] => .ok progress
      | path :: others => (progress.takePath path).map (·.addExtras others)
  | .unknown text :: more => readFrom dialect (progress.addExtras [text]) more
  | .flag flag attached? :: more =>
    if flag.takesValue then
      match attached?, more with
      | some attached, more =>
        match progress.takeGiven flag (attached.given dialect) with
        | .ok progress => readFrom dialect progress more
        | .error fault => .error fault
      | none, .value text :: more =>
        match progress.takeGiven flag (.value text) with
        | .ok progress => readFrom dialect progress more
        | .error fault => .error fault
      | none, _ => .error (.valueExpected flag)
    else
      let nextIsValue :=
        match more with
        | .value _ :: _ => true
        | _ => false
      let checked :=
        match attached? with
        | some attached => checkAttached dialect nextIsValue flag attached
        | none => .ok ()
      match checked with
      | .error fault => .error fault
      | .ok () =>
        let progress := progress.takeFlag flag
        if progress.help then .ok progress else readFrom dialect progress more

/-- What the command is to do. -/
inductive Order where
  | help
  | run (options : Options)

/-- Reads the arguments of the command. -/
def readArguments (dialect : Dialect) (arguments : List String) : Except UsageFault Order :=
  match classify arguments with
  | .error fault => .error fault
  | .ok forms =>
    match readFrom dialect {} forms with
    | .error fault => .error fault
    | .ok progress =>
      let options := progress.options
      if progress.help then .ok .help
      else if options.expression?.isNone && options.path?.isNone then .error .programMissing
      else if !progress.extras.isEmpty then .error (.unrecognized progress.extras)
      else .ok (.run options)

end QuoteStack.CommandLine
