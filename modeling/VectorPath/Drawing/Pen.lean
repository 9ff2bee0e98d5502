import VectorPath.Depth
import VectorPath.Drawing.Call
import VectorPath.Drawing.Curve
import VectorPath.Drawing.Matrix
import VectorPath.Drawing.Motion
import VectorPath.Value.Arguments

/-!
# The pen

A pen carries out drawing calls. How curves are split and where the current point goes is the same
for all pens; a few steps are hooks that each kind of pen can fill in its own way, and they may look
at the current point. The pen of this library turns every step into absolute commands. A component
is replayed from the glyph set, through its matrix unless that moves nothing; a component inside a
component is drawn through the product of the two.
-/

namespace VectorPath

namespace Pen

/-- The names by which messages speak of the pen and of a pen with a matrix. -/
def plainOwner : String := "SegmentPen"

def mappedOwner : String := "TransformPen"

def move (p : Value) : Drawn :=
  .emit do return Command.absolute (.moveTo (← Point.ofValue p))

def line (p : Value) : Drawn :=
  .emit do return Command.absolute (.lineTo (← Point.ofValue p))

def cubic (c : Curve.Cubic) : Drawn :=
  .emit do
    let p ← Point.ofValue c.control1
    let q ← Point.ofValue c.control2
    let r ← Point.ofValue c.finish
    return Command.absolute (.curveTo p q r)

def quadratic (piece : Value × Value) : Drawn :=
  .emit do
    let p ← Point.ofValue piece.1
    let q ← Point.ofValue piece.2
    return Command.absolute (.quadraticCurveTo p q)

def close : Drawn := ⟨[Command.absolute .closePath], none⟩

/-- The steps that a kind of pen carries out in its own way, given the current point. -/
structure Hooks where
  moveTo : Value → Value → Drawn
  lineTo : Value → Value → Drawn
  cubic : Value → Curve.Cubic → Drawn
  quadratic : Value → Value × Value → Drawn
  closePath : Value → Drawn
  endPath : Value → Drawn

/-- A pen with no more than it must have of its own. It draws a quadratic curve as the cubic one
from the current point. -/
def Hooks.basic (moveTo lineTo : Value → Value → Drawn) (cubic : Value → Curve.Cubic → Drawn) :
    Hooks :=
  { moveTo, lineTo, cubic
    quadratic := fun current piece =>
      .bind (Curve.elevated current piece.1 piece.2) (cubic current)
    closePath := fun _ => .nothing
    endPath := fun _ => .nothing }

def commandHooks : Hooks :=
  { Hooks.basic (fun _ => move) (fun _ => line) (fun _ => cubic) with
    quadratic := fun _ => quadratic
    closePath := fun _ => close
    endPath := fun _ => .nothing }

namespace Hooks

variable (hooks : Hooks)

def moving (p : Value) : Motion := .reaching p fun current => hooks.moveTo current p

def straight (p : Value) : Motion := .reaching p fun current => hooks.lineTo current p

def cubicPiece (c : Curve.Cubic) : Motion := .reaching c.finish fun current => hooks.cubic current c

def quadraticPiece (piece : Value × Value) : Motion :=
  .reaching piece.2 fun current => hooks.quadratic current piece

def closing : Motion := .reaching .null hooks.closePath

def ending : Motion := .reaching .null hooks.endPath

/-- A quadratic curve to the last of the points. -/
def quadraticTo (points : List Value) : Motion :=
  match points with
  | [p] => hooks.straight p
  | _ => .bind (Curve.quadraticPieces points) (.sequence hooks.quadraticPiece)

/-- A quadratic curve; when its last point is null, it starts and ends midway between the last
and the first point off the curve. -/
def quadraticCurve (points : List Value) : Motion :=
  match points.getLast? with
  | none => .failed (.mishap .noPoints)
  | some .null =>
      match points.dropLast.getLast?, points.head? with
      | some last, some first =>
          .bind (Curve.midpoint last first) fun start =>
            ((Motion.goTo start).andThen (hooks.moving start)).andThen
              (hooks.quadraticTo (points.dropLast ++ [start]))
      | _, _ => .failed (.mishap (.outOfRange "tuple"))
  | some _ => hooks.quadraticTo points

/-- A cubic curve, or a curve of lower degree when there are fewer controls than two. -/
def cubicCurve (points : List Value) : Motion :=
  match points with
  | [] => .failed (.mishap .noPoints)
  | [p] => hooks.straight p
  | [p, q] => hooks.quadraticCurve [p, q]
  | [p, q, r] => hooks.cubicPiece ⟨p, q, r⟩
  | _ => .bind (Curve.cubicPieces points) (.sequence hooks.cubicPiece)

end Hooks

/-- The parameters of a method, with the owner that a message names; none for any number. -/
def signature (mapped : Bool) : Method → Option (String × List String)
  | .moveTo => some (owner "BasePen", ["pt"])
  | .lineTo => some (owner "BasePen", ["pt"])
  | .closePath => some (owner "BasePen", [])
  | .endPath => some (owner "BasePen", [])
  | .addComponent => some (owner "DecomposingPen", ["glyphName", "transformation"])
  | .addVarComponent =>
      some (if mapped then "AbstractPen" else "DecomposingPen",
        ["glyphName", "transformation", "location"])
  | .curveTo | .qCurveTo => none
where
  owner (plain : String) : String := if mapped then mappedOwner else plain

def checkArguments (mapped : Bool) (m : Method) (arguments : List Value) : Outcome Unit :=
  match signature mapped m with
  | none => .ok ()
  | some (owner, parameters) => do
      let _ ← Arguments.bind (owner ++ "." ++ m.name) parameters arguments []

def mapPoint (matrix : Option Matrix) (p : Value) : Outcome Value :=
  match matrix with
  | none => .ok p
  | some m => m.apply p

def mapPoints (matrix : Option Matrix) (points : List Value) : Outcome (List Value) :=
  points.mapM (mapPoint matrix)

/-- The points of a quadratic curve through a matrix: a null at the end stays. -/
def mapQuadratic (matrix : Option Matrix) (points : List Value) : Outcome (List Value) :=
  match matrix, points.getLast? with
  | some _, none => mishap (.outOfRange "tuple")
  | some _, some .null => do return (← mapPoints matrix points.dropLast) ++ [.null]
  | _, _ => mapPoints matrix points

/-- The recording of a component, if the glyph set has one for its name. -/
def component (glyphs : Option GlyphSet) (name : Value) : Outcome (Option Recording) :=
  match glyphs with
  | none => mishap (.notIndexable Value.null.sort)
  | some set =>
      match name.mutablePart? with
      | some sort => mishap (.unhashable sort)
      | none =>
          match name with
          | .text s => .ok (set.recording? s)
          | _ => .ok none

/-- The matrix in front of a component, outside ones included, as a value. -/
def componentMatrix (matrix : Option Matrix) (v : Value) : Outcome Value :=
  match matrix with
  | none => .ok v
  | some m => do return (← m.compose v).toValue

/-- Carries out one call with a matrix in front of the pen, or none. What is inside a component is
carried out in the way that is given. -/
def carryOut (hooks : Hooks) (glyphs : Option GlyphSet)
    (inside : Option Matrix → Recording → Motion)
    (matrix : Option Matrix) (call : Call) : Motion :=
  match Method.ofName? call.method with
  | none =>
      let owner := if matrix.isSome then mappedOwner else plainOwner
      .failed (.mishap (.noMethod owner call.method))
  | some m =>
      .bind (checkArguments matrix.isSome m call.arguments) fun _ =>
        match m, call.arguments with
        | .moveTo, [p] => .bind (mapPoint matrix p) hooks.moving
        | .lineTo, [p] => .bind (mapPoint matrix p) hooks.straight
        | .curveTo, points => .bind (mapPoints matrix points) hooks.cubicCurve
        | .qCurveTo, points => .bind (mapQuadratic matrix points) hooks.quadraticCurve
        | .closePath, _ => hooks.closing
        | .endPath, _ => hooks.ending
        | .addComponent, [name, v] =>
            .bind (componentMatrix matrix v) fun inner =>
              .bind (component glyphs name) fun
                | none => .rest
                | some recording =>
                    if Matrix.isIdentity inner then inside none recording
                    else
                      .bind (Matrix.ofValue inner) fun through => inside (some through) recording
        | .addVarComponent, _ => .failed (.mishap .unsupportedCall)
        | _, _ => .rest

/-- Carries out one call and the components in it. The fuel bounds how many calls may be under way
inside each other, so a component that contains itself fails in the end. Drawing a component takes
three calls, and one more when a matrix stands in front of the pen. -/
def carry (hooks : Hooks) (glyphs : Option GlyphSet) : Nat → Option Matrix → Call → Motion
  | fuel + 4, matrix, call =>
      let inside (through : Option Matrix) : Recording → Motion :=
        match matrix with
        | none => .sequence (carry hooks glyphs (fuel + 1) through)
        | some _ => .sequence (carry hooks glyphs fuel through)
      carryOut hooks glyphs inside matrix call
  | _, _, _ => .failed (.mishap .nestedComponents)

def perform [Depth] (glyphs : Option GlyphSet) : Call → Motion :=
  carry commandHooks glyphs Depth.calls none

def replay [Depth] (glyphs : Option GlyphSet) (recording : Recording) : Drawn :=
  (Motion.sequence (perform glyphs) recording).drawn

end Pen

def Recording.commands [Depth] (glyphs : Option GlyphSet) (recording : Recording) :
    Outcome (List Command) :=
  (Pen.replay glyphs recording).outcome

end VectorPath
