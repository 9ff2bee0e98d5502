import VectorPath.Value.Arithmetic
import VectorPath.Value.Sequence
import VectorPath.Value.Equality

/-!
# Matrices

An affine map of the plane as six values `(a, b, c, d, e, f)`, which takes a point `(x, y)` to
`(a x + c y + e, b x + d y + f)`. Sums are formed from left to right.
-/

namespace VectorPath

structure Matrix where
  a : Value
  b : Value
  c : Value
  d : Value
  e : Value
  f : Value

namespace Matrix

/-- The entries that are taken when fewer than six are given. -/
def defaults : List Value := [.int 1, .int 0, .int 0, .int 1, .int 0, .int 0]

def toList (m : Matrix) : List Value := [m.a, m.b, m.c, m.d, m.e, m.f]

def toValue (m : Matrix) : Value := .tuple m.toList

/-- Whether a value is a tuple equal to the entries of the map that moves nothing. -/
def isIdentity (v : Value) : Bool := v.sameValue (.tuple defaults)

def ofList? : List Value → Option Matrix
  | [a, b, c, d, e, f] => some ⟨a, b, c, d, e, f⟩
  | _ => none

/-- The name under which messages speak of the operation that builds a matrix. -/
def builder : String := "fontTools.misc.transform.Transform"

/-- The matrix of up to six entries, the others by default. -/
def ofValue (v : Value) : Outcome Matrix :=
  match v.items? with
  | none => mishap (.notSpreadable builder v.sort)
  | some entries =>
      match ofList? (entries ++ defaults.drop entries.length) with
      | some m => .ok m
      | none => mishap (.argumentRange "Transform.__new__" 1 7 (entries.length + 1))

/-- `p * x + q * y`. -/
def dot (p x q y : Value) : Outcome Value := do
  let left ← p.mul x
  left.add (← q.mul y)

/-- `p * x + q * y + r`. -/
def dotPlus (p x q y r : Value) : Outcome Value := do
  (← dot p x q y).add r

/-- The image of a point given as a pair. -/
def apply (m : Matrix) (point : Value) : Outcome Value := do
  let (x, y) ← point.pair
  let u ← dotPlus m.a x m.c y m.e
  let v ← dotPlus m.b x m.d y m.f
  return .tuple [u, v]

/-- The matrix that first applies the inner one, given as six values, and then this one. -/
def compose (m : Matrix) (inner : Value) : Outcome Matrix := do
  match ofList? (← inner.unpack 6) with
  | none => mishap (.tooMany 6)
  | some o =>
      return {
        a := ← dot o.a m.a o.b m.c
        b := ← dot o.a m.b o.b m.d
        c := ← dot o.c m.a o.d m.c
        d := ← dot o.c m.b o.d m.d
        e := ← dotPlus m.a o.e m.c o.f m.e
        f := ← dotPlus m.b o.e m.d o.f m.f }

end Matrix

end VectorPath
