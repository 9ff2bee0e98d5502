import VectorPath.Command.Basic

/-!
# Decoding serialized commands

A serialized command is a record with a letter and exactly the fields of its form, each of the
sort it declares. The checks are made in a fixed order, so the reason of a refusal does not
depend on the order of the entries: first the letter, then missing fields, then fields that do
not belong, then the fields in the order of their declaration.
-/

namespace VectorPath.Command

/-- Why a value is not a serialized command. -/
inductive DecodeReason
  | notRecord
  | unknownLetter (letter : Value)
  | missing (letter : Char) (names : List String)
  | unexpected (letter : Char) (names : List String)
  | illTyped (name : String) (sort : FieldSort)

/-- What a field of a sort must be. -/
def requirement : FieldSort → String
  | .point => "a pair of numbers"
  | .number => "a number"
  | .flag => "a boolean"

def DecodeReason.message : DecodeReason → String
  | .notRecord => "expected an object"
  | .unknownLetter letter => "unknown command " ++ letter.display
  | .missing letter names =>
      "missing field(s) for '" ++ String.singleton letter ++ "': " ++ joinWith ", " names
  | .unexpected letter names =>
      "unexpected field(s) for '" ++ String.singleton letter ++ "': " ++ joinWith ", " names
  | .illTyped name sort => "field '" ++ name ++ "' must be " ++ requirement sort

/-- Texts in ascending order of their code points. -/
def sortedNames (names : List String) : List String :=
  names.mergeSort fun s t => decide (s ≤ t)

/-- Whether a value is a number in a field; truth values are not. -/
def decodeNumber? : Value → Option Number
  | .number n => some n
  | _ => none

/-- The point that a pair of numbers denotes. -/
def decodePoint? : Value → Option Point
  | .list [.number x, .number y] => some ⟨.number x, .number y⟩
  | .tuple [.number x, .number y] => some ⟨.number x, .number y⟩
  | _ => none

/-- The field that a value of the right sort denotes. -/
def decodeField? (sort : FieldSort) (v : Value) : Option Parameter :=
  match sort with
  | .point => (decodePoint? v).map .point
  | .number => (decodeNumber? v).map fun n => .number (.number n)
  | .flag =>
      match v with
      | .bool b => some (.flag (.bool b))
      | _ => none

/-- The form that a serialized command names. -/
def formOf? (entries : List (String × Value)) : Option Form :=
  match Value.lookup "command" entries with
  | some (.text s) => Form.ofLetter? s
  | _ => none

/-- Names of fields of the form that have no entry. -/
def missingNames (form : Form) (entries : List (String × Value)) : List String :=
  sortedNames (form.fieldNames.filter fun name => !(entries.any fun entry => entry.1 == name))

/-- Names of entries that are no field of the form. -/
def unexpectedNames (form : Form) (entries : List (String × Value)) : List String :=
  sortedNames ((entries.map Prod.fst).filter fun name =>
    name != "command" && !form.fieldNames.contains name)

/-- The fields of the form from their entries; the first ill-typed one is the reason. -/
def decodeFields (entries : List (String × Value)) :
    List (String × FieldSort) → Except DecodeReason (List Parameter)
  | [] => .ok []
  | (name, sort) :: rest =>
      match decodeField? sort ((Value.lookup name entries).getD .null) with
      | none => .error (.illTyped name sort)
      | some p => return p :: (← decodeFields entries rest)

/-- The command that the entries of a record denote. -/
def decodeEntries (entries : List (String × Value)) : Except DecodeReason Command :=
  match formOf? entries with
  | none => .error (.unknownLetter ((Value.lookup "command" entries).getD .null))
  | some form =>
      match missingNames form entries, unexpectedNames form entries with
      | name :: names, _ => .error (.missing form.letter (name :: names))
      | [], name :: names => .error (.unexpected form.letter (name :: names))
      | [], [] => do
          match ofParameters? form (← decodeFields entries form.fields) with
          | some c => return c
          | none => .error .notRecord

def decode? : Value → Except DecodeReason Command
  | .record entries => decodeEntries entries
  | _ => .error .notRecord

/-- Whether a reason shows an integer that has too many digits for a text. -/
def DecodeReason.holdsLongInteger : DecodeReason → Bool
  | .unknownLetter letter => letter.holdsLongInteger
  | _ => false

/-- The fault of a value that is no command. It shows the index and the reason, and neither can
be shown if it holds an integer with too many digits for a text. -/
def refuse {α : Type} (index : Value) (reason : DecodeReason) : Outcome α :=
  if reason.holdsLongInteger || index.holdsLongInteger then mishap .integerTextTooLong
  else fault (.invalidCommand index reason.message)

/-- The command that a value denotes; the fault carries the index of the value. -/
def decode (index : Value) (v : Value) : Outcome Command :=
  match decode? v with
  | .ok c => .ok c
  | .error reason => refuse index reason

end VectorPath.Command
