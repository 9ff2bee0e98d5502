import VectorPath.Value.Basic
import VectorPath.Text.Quoted
import VectorPath.Number.Layout

/-!
# The display form of a value

The form in which messages show a value. Texts are quoted, a tuple of one item keeps a comma,
and points and commands show their fields by name. Integers of too many digits are not shown, so
a value that holds one has no display form that a message may use.
-/

namespace VectorPath

def joinWith (separator : String) : List String → String
  | [] => ""
  | [s] => s
  | s :: rest => s ++ separator ++ joinWith separator rest

def Number.display : Number → String
  | .int i => String.ofList (Layout.integer i)
  | .float x => x.display

namespace Value

/-- Names before the display forms of the fields of a command. -/
def labelled (names shown : List String) : String :=
  joinWith ", " (List.zipWith (fun name s => name ++ "=" ++ s) names shown)

def tupled : List String → String
  | [s] => "(" ++ s ++ ",)"
  | shown => "(" ++ joinWith ", " shown ++ ")"

mutual

def display : Value → String
  | .null => "None"
  | .bool b => if b then "True" else "False"
  | .number n => n.display
  | .text s => Text.quoted s
  | .list items => "[" ++ joinWith ", " (displayAll items) ++ "]"
  | .tuple items => tupled (displayAll items)
  | .record entries => "\x7b" ++ joinWith ", " (displayEntries entries) ++ "\x7d"
  | .point x y => "Point(x=" ++ display x ++ ", y=" ++ display y ++ ")"
  | .command form fields => form.name ++ "(" ++ labelled form.fieldNames (displayAll fields) ++ ")"

def displayAll : List Value → List String
  | [] => []
  | v :: rest => display v :: displayAll rest

def displayEntries : List (String × Value) → List String
  | [] => []
  | (key, v) :: rest => (Text.quoted key ++ ": " ++ display v) :: displayEntries rest

end

mutual

/-- Whether a value holds an integer with too many digits for a text. -/
def holdsLongInteger : Value → Bool
  | .number (.int i) => Layout.isTooLong i
  | .list items => anyLongInteger items
  | .tuple items => anyLongInteger items
  | .record entries => anyLongEntry entries
  | .point x y => holdsLongInteger x || holdsLongInteger y
  | .command _ fields => anyLongInteger fields
  | _ => false

def anyLongInteger : List Value → Bool
  | [] => false
  | v :: rest => holdsLongInteger v || anyLongInteger rest

def anyLongEntry : List (String × Value) → Bool
  | [] => false
  | (_, v) :: rest => holdsLongInteger v || anyLongEntry rest

end

/-- A text stands for itself; any other value is displayed. -/
def plain : Value → String
  | .text s => s
  | v => v.display

end Value

end VectorPath
