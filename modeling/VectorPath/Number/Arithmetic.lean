import VectorPath.CoreNumerals
import VectorPath.Number.Nearest

/-!
# Sums and products of binary64 numbers

Each operation computes the exact result as an integer times a power of two and rounds once.
A sum that is exactly zero is negative only when both terms are, and a product takes the sign
of its factors, zero included.
-/

namespace VectorPath.Binary64

open scoped CoreNumerals

/-- `m * 2 ^ (e - least)`: the mantissa over a smaller exponent. -/
def alignedTo (least : Int) (m : Nat) (e : Int) : Nat :=
  m * 2 ^ (e - least).toNat

def addFinite (s : Bool) (m : Nat) (e : Int) (t : Bool) (n : Nat) (f : Int) : Binary64 :=
  let least := min e f
  let total := signed s (alignedTo least m e) + signed t (alignedTo least n f)
  if total = 0 then zero (s && t)
  else ofDyadic (total < 0) total.natAbs least

def add : Binary64 → Binary64 → Binary64
  | .nan, _ | _, .nan => .nan
  | .infinity s, .infinity t => if s = t then .infinity s else .nan
  | .infinity s, .finite .. => .infinity s
  | .finite .., .infinity t => .infinity t
  | .finite s m e _, .finite t n f _ => addFinite s m e t n f

def sub (x y : Binary64) : Binary64 := x.add y.negate

def mul : Binary64 → Binary64 → Binary64
  | .nan, _ | _, .nan => .nan
  | .infinity s, .infinity t => .infinity (s != t)
  | .infinity s, .finite t n _ _ => if n = 0 then .nan else .infinity (s != t)
  | .finite s m _ _, .infinity t => if m = 0 then .nan else .infinity (s != t)
  | .finite s m e _, .finite t n f _ => ofDyadic (s != t) (m * n) (e + f)

/-- The exact integer a number stands for, if it is one. -/
def toInt? : Binary64 → Option Int
  | .finite s m (.ofNat k) _ => some (signed s (m * 2 ^ k))
  | .finite s m (.negSucc k) _ =>
      if m % 2 ^ (k + 1) = 0 then some (signed s (m / 2 ^ (k + 1))) else none
  | _ => none

/-- Equality of values: zero equals zero of the other sign, and no number equals `nan`. -/
def sameValue : Binary64 → Binary64 → Bool
  | .nan, _ | _, .nan => false
  | x, y => (x.isZero && y.isZero) || x == y

end VectorPath.Binary64
