import VectorPath.Logging.Level
import VectorPath.Text.Escaped

/-!
# Log records

A record is written as one line of JSON in ASCII: its own fields, then the event, the logger, the
level and the time. A field of its own under one of these keys keeps its place and loses its
value. Texts are escaped, so no text can end the line or the field it is in. A count of too many
digits has no text, and a record with such a count has no line.
-/

namespace VectorPath

inductive RecordField
  | null
  | text (text : String)
  | count (count : Int)
  deriving DecidableEq, Repr

/-- The value of a field in JSON, if it has a text. -/
def RecordField.spelling : RecordField → String
  | .null => "null"
  | .text s => Text.escaped s
  | .count n => String.ofList (Layout.integer n)

def RecordField.toJson (field : RecordField) : Outcome String :=
  match field with
  | .count n => if Layout.isTooLong n then mishap .integerTextTooLong else .ok field.spelling
  | _ => .ok field.spelling

structure Record where
  level : Level
  event : String
  fields : List (String × RecordField)
  deriving Repr

namespace Record

def logger : String := "pathdata"

/-- Sets a field: an old one keeps its place. -/
def setField (key : String) (value : RecordField) :
    List (String × RecordField) → List (String × RecordField)
  | [] => [(key, value)]
  | field :: rest =>
      if field.1 = key then (key, value) :: rest else field :: setField key value rest

def allFields (time : String) (r : Record) : List (String × RecordField) :=
  [("event", .text r.event), ("logger", .text logger), ("level", .text r.level.word),
    ("timestamp", .text time)].foldl (fun fields f => setField f.1 f.2 fields) r.fields

/-- A key and the text of its value in JSON. -/
def memberText (key text : String) : String := Text.escaped key ++ ": " ++ text

/-- The line of members, without its end. -/
def lineOf (members : List String) : String := "\x7b" ++ joinWith ", " members ++ "\x7d"

/-- The line of a record whose counts have texts. -/
def line (time : String) (r : Record) : String :=
  lineOf ((r.allFields time).map fun field => memberText field.1 field.2.spelling)

def render (time : String) (r : Record) : Outcome String := do
  return lineOf (← (r.allFields time).mapM fun field => do
    return memberText field.1 (← field.2.toJson))

/-- A text padded with spaces to eight characters. -/
def padded (s : String) : String :=
  s ++ String.ofList (List.replicate (8 - s.length) ' ')

/-- The line of a record in a log file, which begins with the time and the level. -/
def fileLine (clock time : String) (r : Record) : String :=
  joinWith " | " [clock, padded r.level.name, logger, r.line time]

/-- Logging has been set up, with a log file if there is a name for one. The level is the one
asked for, before the record's own takes its place. -/
def initialized (fileName? : Option String) (consoleLevel : String) : Record :=
  { level := .debug
    event := "Logging initialized"
    fields := [
      ("log_file", match fileName? with
        | some name => .text name
        | none => .null),
      ("level", .text consoleLevel)] }

/-- A source of commands has been loaded. -/
def loaded (source : String) (count : Int) : Record :=
  { level := .debug
    event := "Source loaded"
    fields := [("source", .text source), ("segments", .count count)] }

/-- A path has been written. -/
def encoded (source : String) (count length : Int) : Record :=
  { level := .info
    event := "Path encoded"
    fields := [("source", .text source), ("segments", .count count), ("length", .count length)] }

/-- A source could not be loaded or its path could not be written. -/
def failed (source : String) (f : Fault) : Record :=
  { level := .error
    event := "Encoding failed"
    fields := [("source", .text source), ("error", .text f.message), ("error_type", .text f.name)] }

end Record

end VectorPath
