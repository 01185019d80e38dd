import QuoteStack.Journal
import QuoteStack.Logging.Mark

/-!
The form of log lines: a text with marks for the fields of a record. A text without any mark for a
field describes no form. A form with a mark that makes no sense can be set up, and then no line is
written with it.
-/

namespace QuoteStack.Logging

/-- What the process adds to the records that it logs, and the memory that it has for lines. -/
structure Particulars where
  /-- When a record is made. -/
  time : Record → String
  /-- The fields besides the logger, the level, the message and the time, by their names. -/
  field? : Record → List Char → Option Writer
  /-- A record as a whole. -/
  whole : Record → Writer
  /-- A number in the letters for numbers. -/
  number : Int → Writer
  /-- The length that a text can have. -/
  maxLength : Nat
  /-- What is reported of a record that no line can be written for. -/
  report : Record → String

/-- A field of a record as marks write it, if the record has a field of the name. -/
def Particulars.writer? (particulars : Particulars) (record : Record) (name : List Char) :
    Option Writer :=
  let text (s : String) : Writer := Style.writeText? particulars.maxLength s.toList
  match String.ofList name with
  | "name" => some (text record.logger)
  | "levelname" => some (text record.severity.name)
  | "levelno" =>
    some (Style.writeNumber? particulars.maxLength particulars.number record.severity)
  | "message" => some (text record.message)
  | "asctime" => some (text (particulars.time record))
  | _ => particulars.field? record name

/-- A piece of a form. -/
inductive FormatPiece where
  | char (c : Char)
  | mark (mark : Mark)
  deriving DecidableEq

/-- The mark of a piece that is one. -/
def FormatPiece.mark? : FormatPiece → Option Mark
  | .char _ => none
  | .mark found => some found

/-- A form of log lines; without pieces no line can be written with it. -/
structure Format where
  pieces? : Option (List FormatPiece)
  deriving DecidableEq

namespace Format

/-- Splits a text into pieces; `skip` more characters belong to the mark before. Two percent signs
stand for one. -/
def piecesFrom? : (skip : Nat) → List Char → Option (List FormatPiece)
  | _, [] => some []
  | skip + 1, _ :: rest => piecesFrom? skip rest
  | 0, c :: rest =>
    if c != '%' then (piecesFrom? 0 rest).map (.char c :: ·)
    else if rest.head? == some '%' then (piecesFrom? 1 rest).map (.char '%' :: ·)
    else
      match Mark.read? rest with
      | some (mark, after) =>
        (piecesFrom? (rest.length - after.length) rest).map (.mark mark :: ·)
      | none => none

/-- Whether all marks but the first have a name: the record as a whole can be written once, and only
before its fields are. -/
def isOrderly (pieces : List FormatPiece) : Bool :=
  ((pieces.filterMap FormatPiece.mark?).drop 1).all fun mark => mark.name?.isSome

/-- The form that a text describes, if a mark for a field occurs in it. -/
def ofText? (text : String) : Option Format :=
  if Mark.occursIn text.toList then some ⟨(piecesFrom? 0 text.toList).filter isOrderly⟩ else none

/-- Time, logger, level and message, with spaces between. -/
def standard : Format :=
  let place (name : String) : FormatPiece := .mark ⟨some name.toList, .plain⟩
  ⟨some [place "asctime", .char ' ', place "name", .char ' ', place "levelname", .char ' ',
    place "message"]⟩

/-- What a piece becomes for a record. -/
def fillPiece (particulars : Particulars) (record : Record) : FormatPiece → Option (List Char)
  | .char c => some [c]
  | .mark ⟨none, style⟩ => particulars.whole record style
  | .mark ⟨some name, style⟩ => particulars.writer? record name >>= fun write => write style

/-- The line of a record, without its end, if one can be written. -/
def fill? (format : Format) (particulars : Particulars) (record : Record) : Option String :=
  format.pieces? >>= fun pieces =>
    (pieces.mapM (fillPiece particulars record)).map fun texts => String.ofList texts.flatten

end Format

end QuoteStack.Logging
