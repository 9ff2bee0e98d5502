import VectorPath.Command.Decode
import VectorPath.Files.Basic
import VectorPath.Json.Reader
import VectorPath.Text.Newlines

/-!
# Documents

A document is a JSON array of serialized commands. Its items are decoded in order and the first
one that is no command is the fault of the document. A document comes from a file in strict UTF-8,
whose line ends are unified, or from standard input, whose text is taken as it is. What the system
says about a file becomes a fault of the document; bytes that are not UTF-8, a name with the
character that ends names, and nesting beyond the limit of the reader are mishaps.
-/

namespace VectorPath.Document

/-- The commands of the items of a document, each with its index. -/
def decodeItems (items : List Value) : Outcome (List Command) :=
  items.zipIdx.mapM fun (item, i) => Command.decode (.int i) item

def ofValue (source : String) : Value → Outcome (List Command)
  | .list items => decodeItems items
  | _ => fault (.document source "expected a JSON array of commands")

/-- The commands of a document from its text. The source names it in messages. -/
def ofText [Depth] (source text : String) : Outcome (List Command) :=
  match Json.parse text.toList with
  | .ok v => ofValue source v
  | .error (.nestedTooDeep container) => mishap (.nestedTooDeep container)
  | .error e => fault (.document source ("invalid JSON: " ++ e.message text.toList))

def inputName : String := "<stdin>"

def textOf (files : Files) (place : Place) : Outcome String :=
  if place.hasNul then mishap .nulInPlace
  else
    match files.readBytes place with
    | .error refusal => fault (.document place.toText refusal.reason)
    | .ok bytes =>
        match Text.decodeUtf8 bytes with
        | .error e => mishap (.undecodable e)
        | .ok text => .ok (Text.withUnifiedNewlines text)

/-- The commands of the document at a place, or on standard input. -/
def read [Depth] (files : Files) (input : String) (place : Place) : Outcome (List Command) :=
  if place = Place.standardInput then ofText inputName input
  else do ofText place.toText (← textOf files place)

end VectorPath.Document
