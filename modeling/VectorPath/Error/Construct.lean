import VectorPath.Value.Arguments

/-!
# Building faults

A fault is built from values under the name by which it is logged. A general fault takes any
number of them; every other one takes a value for each of its parameters, and its message shows
them. A fault whose message cannot be shown is not built.
-/

namespace VectorPath.Fault

/-- The fault that values bound to the parameters of a name give. -/
def ofParameters : String → List Value → Fault
  | "SegmentDecodeError", [index, reason] => .invalidCommand index reason.plain
  | "NonFiniteValueError", [number] => .nonFinite number
  | "DocumentLoadError", [place, reason] => .document place.plain reason.plain
  | "FontLoadError", [place, reason] => .font place.plain reason.plain
  | "GlyphNotFoundError", [name] => .glyph name.plain
  | "InputError", arguments => .generalInput arguments
  | "SegmentError", arguments => .generalCommand arguments
  | _, arguments => .general arguments

/-- The parameters of a name; none for any number of arguments. -/
def parameters? : String → Option (List String)
  | "SegmentDecodeError" => some ["index", "reason"]
  | "NonFiniteValueError" => some ["value"]
  | "DocumentLoadError" | "FontLoadError" => some ["path", "reason"]
  | "GlyphNotFoundError" => some ["glyph_name"]
  | _ => none

def bindArguments (name : String) (arguments : List Value) : Outcome (List Value) :=
  match parameters? name with
  | none => .ok arguments
  | some parameters => Arguments.bind (initializer name) parameters arguments []

def construct (name : String) (arguments : List Value) : Outcome Fault := do
  let values ← bindArguments name arguments
  if Value.anyLongInteger values then mishap .integerTextTooLong
  else return ofParameters name values

end VectorPath.Fault
