import VectorPath.Error

/-!
# Drawing calls

Outlines are drawn by calls with values as arguments. A recording is a list of calls, and a glyph
set gives a recording for each name. Nothing is checked until a call is carried out.
-/

namespace VectorPath

/-- A call by the name of its method. -/
structure Call where
  method : String
  arguments : List Value
  deriving Inhabited

abbrev Recording := List Call

abbrev GlyphSet := List (String × Recording)

def GlyphSet.recording? (glyphs : GlyphSet) (name : String) : Option Recording :=
  (glyphs.find? fun g => g.1 == name).map Prod.snd

inductive Method
  | moveTo
  | lineTo
  | curveTo
  | qCurveTo
  | closePath
  | endPath
  | addComponent
  | addVarComponent
  deriving DecidableEq, Repr

namespace Method

def all : List Method :=
  [moveTo, lineTo, curveTo, qCurveTo, closePath, endPath, addComponent, addVarComponent]

def name : Method → String
  | moveTo => "moveTo"
  | lineTo => "lineTo"
  | curveTo => "curveTo"
  | qCurveTo => "qCurveTo"
  | closePath => "closePath"
  | endPath => "endPath"
  | addComponent => "addComponent"
  | addVarComponent => "addVarComponent"

def ofName? (s : String) : Option Method := all.find? fun m => m.name == s

end Method

namespace Call

def moveTo (p : Value) : Call := ⟨Method.moveTo.name, [p]⟩

def lineTo (p : Value) : Call := ⟨Method.lineTo.name, [p]⟩

def curveTo (points : List Value) : Call := ⟨Method.curveTo.name, points⟩

def qCurveTo (points : List Value) : Call := ⟨Method.qCurveTo.name, points⟩

def closePath : Call := ⟨Method.closePath.name, []⟩

def addComponent (glyph : String) (matrix : Value) : Call :=
  ⟨Method.addComponent.name, [.text glyph, matrix]⟩

end Call

end VectorPath
