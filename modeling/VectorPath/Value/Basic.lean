import VectorPath.Command.Form
import VectorPath.Number.Basic

/-!
# Values

A command can be built from values of any sort, and only writing it asks for numbers. Documents,
settings and recorded calls bring values of the same sorts, so there is one type for all of them.
A command inside a value is held as its form and the values of its fields.
-/

namespace VectorPath

inductive Value
  | null
  | bool (truth : Bool)
  | number (value : Number)
  | text (text : String)
  | list (items : List Value)
  | tuple (items : List Value)
  | record (entries : List (String × Value))
  | point (x y : Value)
  | command (form : Form) (fields : List Value)
  deriving Inhabited

namespace Value

def int (i : Int) : Value := .number (.int i)

def float (x : Binary64) : Value := .number (.float x)

/-- The name of a value's sort, as messages give it. -/
def sort : Value → String
  | .null => "NoneType"
  | .bool _ => "bool"
  | .number (.int _) => "int"
  | .number (.float _) => "float"
  | .text _ => "str"
  | .list _ => "list"
  | .tuple _ => "tuple"
  | .record _ => "dict"
  | .point .. => "Point"
  | .command form _ => form.name

/-- The number a value counts as: a truth value counts as one or zero. -/
def number? : Value → Option Number
  | .number n => some n
  | .bool b => some (.int (if b then 1 else 0))
  | _ => none

/-- A number that is not a truth value. -/
def isNumber : Value → Bool
  | .number _ => true
  | _ => false

/-- Null, zero and everything empty are false; `nan` and points are true. -/
def truth : Value → Bool
  | .null => false
  | .bool b => b
  | .number (.int i) => i != 0
  | .number (.float x) => !x.isZero
  | .text s => s != ""
  | .list items => !items.isEmpty
  | .tuple items => !items.isEmpty
  | .record entries => !entries.isEmpty
  | .point .. => true
  | .command .. => true

/-- What a value yields when it is gone through: items, characters or keys. -/
def items? : Value → Option (List Value)
  | .list items => some items
  | .tuple items => some items
  | .text s => some (s.toList.map fun c => .text (String.singleton c))
  | .record entries => some (entries.map fun entry => .text entry.1)
  | _ => none

def lookup (key : String) (entries : List (String × Value)) : Option Value :=
  (entries.find? fun entry => entry.1 == key).map Prod.snd

/-- Sets a key: an old key keeps its place. -/
def insert (key : String) (value : Value) : List (String × Value) → List (String × Value)
  | [] => [(key, value)]
  | entry :: rest =>
      if entry.1 = key then (key, value) :: rest else entry :: insert key value rest

end Value

end VectorPath
