import VectorPath.Value.Arithmetic
import VectorPath.Value.Sequence

/-!
# Splitting curves

A quadratic curve with several points off the curve passes through the midpoints of consecutive
ones, so it splits there. A cubic curve with more than two control points splits in the same
spirit: the legs between control points are divided, most of them in three, and the joints are
the midpoints of neighbouring divisions. All pieces are computed before any is drawn.
-/

namespace VectorPath.Curve

def half : Value := .float (Binary64.ofRatio false 1 2)

def middle (a b : Value) : Outcome Value := do
  half.mul (← a.add b)

/-- The midpoint of two points given as pairs. -/
def midpoint (p q : Value) : Outcome Value := do
  let (x, y) ← p.pair
  let (u, v) ← q.pair
  let a ← middle x u
  let b ← middle y v
  return .tuple [a, b]

/-- The quadratic pieces through the given points, as a control and an end each. -/
def quadraticPieces : List Value → Outcome (List (Value × Value))
  | p :: q :: r :: rest => do
      let joint ← midpoint p q
      let pieces ← quadraticPieces (q :: r :: rest)
      return (p, joint) :: pieces
  | [p, q] => .ok [(p, q)]
  | _ => .ok []

/-- A coordinate at a fraction of the way from one point to the next. -/
def coordinateAt (fraction previous next : Value) (axis : Nat) : Outcome Value := do
  let start ← previous.item axis
  let stop ← next.item axis
  let again ← previous.item axis
  start.add (← fraction.mul (← stop.sub again))

def pointAt (fraction previous next : Value) : Outcome Value := do
  let x ← coordinateAt fraction previous next 0
  let y ← coordinateAt fraction previous next 1
  return .tuple [x, y]

def joint (p q : Value) : Outcome Value := do
  let x ← middle (← p.item 0) (← q.item 0)
  let y ← middle (← p.item 1) (← q.item 1)
  return .tuple [x, y]

/-- A cubic piece: two controls and an end. -/
structure Cubic where
  control1 : Value
  control2 : Value
  finish : Value

/-- Two thirds, as near as a binary64 number comes. -/
def twoThirds : Value := .float (Binary64.ofRatio false 2 3)

/-- A coordinate two thirds of the way from one to another. -/
def thirdAt (start stop : Value) : Outcome Value := do
  start.add (← twoThirds.mul (← stop.sub start))

/-- The cubic piece that has the course of a quadratic one. -/
def elevated (start control finish : Value) : Outcome Cubic := do
  let (x, y) ← start.pair
  let (u, v) ← control.pair
  let (z, w) ← finish.pair
  let a ← thirdAt x u
  let b ← thirdAt y v
  let c ← thirdAt z u
  let d ← thirdAt w v
  return ⟨.tuple [a, b], .tuple [c, d], finish⟩

/-- A split under way: the first control of the next piece, its second one if it is known, and
the finished pieces. -/
structure Progress where
  control1 : Value
  control2? : Option Value
  pieces : List Cubic

/-- Takes the next division point: it completes a piece or becomes its second control. -/
def Progress.step (s : Progress) (division : Value) : Outcome Progress :=
  match s.control2? with
  | none => .ok { s with control2? := some division }
  | some control2 => do
      let finish ← joint control2 division
      return ⟨division, none, s.pieces ++ [⟨s.control1, control2, finish⟩]⟩

/-- Into how many parts leg `i` is divided, the points being `0` to `n`. -/
def divisions (n i : Nat) : Nat := min (min i 3) (n + 2 - i)

def divideLeg (parts : Nat) (previous next : Value) (s : Progress) : Outcome Progress :=
  (List.range (parts - 1)).foldlM (fun s j => do
    let p ← pointAt (.float (Binary64.ofRatio false (j + 1) parts)) previous next
    s.step p) s

/-- Divides the legs from leg `i` on, given the point where it begins. -/
def divideLegs (n : Nat) : Nat → Value → List Value → Progress → Outcome Progress
  | _, _, [], s => .ok s
  | i, previous, next :: rest, s => do
      divideLegs n (i + 1) next rest (← divideLeg (divisions n i) previous next s)

/-- The cubic pieces of four or more points. Leg `i` runs from point `i - 2` to point `i - 1`, so
the leg to the last point is not divided; the last piece ends with the last two points. -/
def cubicPieces (points : List Value) : Outcome (List Cubic) :=
  match points with
  | first :: second :: third :: rest => do
      let n := rest.length + 2
      let legs := (second :: third :: rest).dropLast
      let s ← divideLegs n 2 first legs ⟨first, none, []⟩
      let all := first :: second :: third :: rest
      return s.pieces ++
        [⟨s.control1, (all[n - 1]?).getD .null, (all[n]?).getD .null⟩]
  | _ => .ok []

end VectorPath.Curve
