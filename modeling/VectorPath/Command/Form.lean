/-!
# Forms of a path command

There are ten kinds of command, and each has an absolute and a relative form. A form has a
letter, a name and a list of fields; the two forms of a kind differ in the case of the letter
and in the ending of the name, and in nothing else.
-/

namespace VectorPath

inductive Kind
  | moveTo
  | lineTo
  | horizontalLineTo
  | verticalLineTo
  | closePath
  | curveTo
  | smoothCurveTo
  | quadraticCurveTo
  | smoothQuadraticCurveTo
  | arcTo
  deriving DecidableEq, Repr

/-- What a field of a command is meant to hold. -/
inductive FieldSort
  | point
  | number
  | flag
  deriving DecidableEq, Repr

namespace Kind

def all : List Kind :=
  [moveTo, lineTo, horizontalLineTo, verticalLineTo, closePath, curveTo, smoothCurveTo,
    quadraticCurveTo, smoothQuadraticCurveTo, arcTo]

def capital : Kind → Char
  | moveTo => 'M'
  | lineTo => 'L'
  | horizontalLineTo => 'H'
  | verticalLineTo => 'V'
  | closePath => 'Z'
  | curveTo => 'C'
  | smoothCurveTo => 'S'
  | quadraticCurveTo => 'Q'
  | smoothQuadraticCurveTo => 'T'
  | arcTo => 'A'

def name : Kind → String
  | moveTo => "MoveTo"
  | lineTo => "LineTo"
  | horizontalLineTo => "HorizontalLineTo"
  | verticalLineTo => "VerticalLineTo"
  | closePath => "ClosePath"
  | curveTo => "CurveTo"
  | smoothCurveTo => "SmoothCurveTo"
  | quadraticCurveTo => "QuadraticCurveTo"
  | smoothQuadraticCurveTo => "SmoothQuadraticCurveTo"
  | arcTo => "ArcTo"

/-- The fields in the order in which they are declared, drawn and written. -/
def fields : Kind → List (String × FieldSort)
  | moveTo | lineTo => [("point", .point)]
  | horizontalLineTo => [("x", .number)]
  | verticalLineTo => [("y", .number)]
  | closePath => []
  | curveTo => [("control1", .point), ("control2", .point), ("end", .point)]
  | smoothCurveTo => [("control2", .point), ("end", .point)]
  | quadraticCurveTo => [("control", .point), ("end", .point)]
  | smoothQuadraticCurveTo => [("end", .point)]
  | arcTo =>
      [("radii", .point), ("angle", .number), ("large_arc", .flag), ("sweep", .flag),
        ("end", .point)]

end Kind

/-- A kind of command in its absolute or relative form. -/
structure Form where
  kind : Kind
  relative : Bool
  deriving DecidableEq, Repr

namespace Form

/-- Every form, the absolute one of each kind first. -/
def all : List Form := Kind.all.flatMap fun k => [⟨k, false⟩, ⟨k, true⟩]

/-- Relative forms have the small letter. -/
def letter (f : Form) : Char := if f.relative then f.kind.capital.toLower else f.kind.capital

def name (f : Form) : String := if f.relative then f.kind.name ++ "Rel" else f.kind.name

def fields (f : Form) : List (String × FieldSort) := f.kind.fields

def fieldNames (f : Form) : List String := f.fields.map Prod.fst

def ofLetter? (s : String) : Option Form := all.find? fun f => s.toList == [f.letter]

def ofName? (s : String) : Option Form := all.find? fun f => s == f.name

def counterpart (f : Form) : Form := { f with relative := !f.relative }

theorem ofLetter?_letter (f : Form) : ofLetter? (String.singleton f.letter) = some f := by
  rcases f with ⟨k, r⟩
  cases k <;> cases r <;> rfl

end Form

end VectorPath
