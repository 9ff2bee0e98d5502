import VectorPath.Drawing.Call

/-!
# Fonts

A font is an ordered list of glyphs. The outline of a glyph is a list of closed contours of points
on and off the curve, a list of other glyphs with a matrix each, or a list of drawing calls. A
glyph of contours is drawn from the first point on the curve, once around; one that has none is
drawn as a single curve through implied points.
-/

namespace VectorPath

inductive FontFormat
  | trueType
  | openType
  deriving DecidableEq, Repr

def FontFormat.name : FontFormat → String
  | trueType => "TrueType"
  | openType => "OpenType"

/-- A point of a contour, on the curve or off it. -/
structure ContourPoint where
  x : Int
  y : Int
  onCurve : Bool
  deriving DecidableEq, Repr

/-- A glyph drawn as part of another, under a matrix of six numbers. -/
structure Component where
  glyph : String
  matrix : List Number
  deriving DecidableEq

inductive Outline
  | contours (contours : List (List ContourPoint))
  | components (components : List Component)
  | strokes (calls : Recording)

structure Glyph where
  name : String
  /-- The distance from the origin to the left edge, which places a glyph of contours. -/
  bearing : Int
  /-- Where the left edge is before the glyph is placed, as the font has it. -/
  left : Int
  outline : Outline

structure Font where
  format : FontFormat
  glyphs : List Glyph

namespace ContourPoint

def toValue (p : ContourPoint) : Value := .tuple [.int p.x, .int p.y]

def shifted (d : Int) (p : ContourPoint) : ContourPoint := { p with x := p.x + d }

end ContourPoint

namespace Outline

/-- The calls for points that end on the curve: a line where nothing is off the curve before the
point, and a curve otherwise. A line that would end the contour is left out. -/
def runs : List ContourPoint → List ContourPoint → Recording
  | _, [] => []
  | off, p :: rest =>
      if p.onCurve then
        let call :=
          if off.isEmpty then
            if rest.isEmpty then [] else [Call.lineTo p.toValue]
          else [Call.qCurveTo ((off ++ [p]).map ContourPoint.toValue)]
        call ++ runs [] rest
      else runs (off ++ [p]) rest

/-- The contour from after its first point on the curve around to that point. -/
def fromFirstOnCurve (contour : List ContourPoint) : List ContourPoint :=
  let before := contour.takeWhile fun p => !p.onCurve
  let after := contour.dropWhile fun p => !p.onCurve
  after.drop 1 ++ before ++ after.take 1

def contourCalls (contour : List ContourPoint) : Recording :=
  match contour.find? ContourPoint.onCurve with
  | none => [Call.qCurveTo (contour.map ContourPoint.toValue ++ [.null]), Call.closePath]
  | some start =>
      Call.moveTo start.toValue :: runs [] (fromFirstOnCurve contour) ++ [Call.closePath]

/-- Where a contour begins that no move has begun. -/
def origin : Value := .tuple [.int 0, .int 0]

/-- Strokes with every contour closed where the next one begins or where nothing follows, and
nowhere else. -/
def closedStrokes : (isOpen : Bool) → Recording → Recording
  | isOpen, [] => if isOpen then [Call.closePath] else []
  | isOpen, call :: rest =>
      if call.method == Method.closePath.name || call.method == Method.endPath.name then
        closedStrokes isOpen rest
      else if call.method == Method.moveTo.name then
        (if isOpen then [Call.closePath] else []) ++ call :: closedStrokes true rest
      else (if isOpen then [] else [Call.moveTo origin]) ++ call :: closedStrokes true rest

/-- The calls that draw an outline moved to the right. -/
def calls (shift : Int) : Outline → Recording
  | contours cs => cs.flatMap fun c => contourCalls (c.map (ContourPoint.shifted shift))
  | components cs => cs.map fun c => Call.addComponent c.glyph (.tuple (c.matrix.map Value.number))
  | strokes recording => closedStrokes false recording

end Outline

namespace Font

def version (font : Font) : List UInt8 :=
  match font.format with
  | .trueType => [0, 1, 0, 0]
  | .openType => [0x4f, 0x54, 0x54, 0x4f]

/-- The first bytes of a font file: the version, the number of tables, which is between eight and
fifteen, and the size in bytes of the first eight entries of the table directory. -/
def header (font : Font) : List UInt8 := font.version ++ [0, 10, 0, 0x80]

def glyph? (glyphs : List Glyph) (name : String) : Option Glyph :=
  glyphs.find? fun g => g.name == name

/-- The glyphs as they are drawn inside others. -/
def glyphSet (glyphs : List Glyph) : GlyphSet := glyphs.map fun g => (g.name, g.outline.calls 0)

/-- Whether drawing an outline meets a contour without points, in components as deep as the fuel
allows. -/
def meetsEmptyContour (glyphs : List Glyph) : Nat → Outline → Bool
  | _, .contours cs => cs.any List.isEmpty
  | fuel + 1, .components cs =>
      cs.any fun c => (glyph? glyphs c.glyph).any fun g => meetsEmptyContour glyphs fuel g.outline
  | _, _ => false

/-- The calls that draw a glyph on its own, with its left edge moved to its bearing. -/
def drawing (g : Glyph) : Recording := g.outline.calls (g.bearing - g.left)

end Font

end VectorPath
