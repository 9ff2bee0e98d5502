import VectorPath.Number.Arithmetic

/-!
# Numbers

A number is an exact integer of any size or a binary64 number. Integers among themselves stay
exact; a binary64 operand turns the other one into the nearest binary64 number, which fails only
when the integer is out of range. Equality is by exact value across both kinds.
-/

namespace VectorPath

inductive Number
  | int (value : Int)
  | float (value : Binary64)
  deriving DecidableEq, Inhabited

namespace Number

/-- The nearest binary64 number; none for an integer out of range. -/
def toFloat? : Number → Option Binary64
  | .int i => Binary64.ofInt? i
  | .float x => some x

/-- Applies the exact operation to two integers and the rounded one otherwise. -/
def combine (exact : Int → Int → Int) (rounded : Binary64 → Binary64 → Binary64) :
    Number → Number → Option Number
  | .int i, .int j => some (.int (exact i j))
  | a, b => do return .float (rounded (← a.toFloat?) (← b.toFloat?))

def add? : Number → Number → Option Number := combine (· + ·) Binary64.add

def sub? : Number → Number → Option Number := combine (· - ·) Binary64.sub

def mul? : Number → Number → Option Number := combine (· * ·) Binary64.mul

def sameValue : Number → Number → Bool
  | .int i, .int j => i == j
  | .float x, .float y => x.sameValue y
  | .int i, .float x | .float x, .int i => x.toInt? == some i

def isFinite : Number → Bool
  | .int _ => true
  | .float x => x.isFinite

end Number

end VectorPath
