import VectorPath.CoreNumerals
import VectorPath.Number.Binary64

/-!
# The nearest binary64 number

Rounding of a quotient of natural numbers to the nearest binary64 number, ties to the even
mantissa, and its special cases for integers and for integers times a power of two. The
exponent is chosen first, from the binary order of the quotient; the mantissa is then one
division rounded half to even. A mantissa that rounds up to `2 ^ 53` moves to the next exponent,
and a pair past the largest exponent is an infinity.
-/

namespace VectorPath

open scoped CoreNumerals

/-- The quotient rounded to the nearest natural number, a tie to the even one. -/
def divHalfEven (n d : Nat) : Nat :=
  if 2 * (n % d) < d then n / d
  else if d < 2 * (n % d) then n / d + 1
  else n / d + n / d % 2

/-- The quotient `n / d`, scaled by `2 ^ (-e)` and rounded half to even. -/
def divScaled (n d : Nat) : Int → Nat
  | .ofNat k => divHalfEven n (d * 2 ^ k)
  | .negSucc k => divHalfEven (n * 2 ^ (k + 1)) d

/-- `d * 2 ^ e ≤ n`, with the power on the side where it is a natural number. -/
def reachesPower (n d : Nat) : Int → Bool
  | .ofNat k => d * 2 ^ k ≤ n
  | .negSucc k => d ≤ n * 2 ^ (k + 1)

/-- The largest `e` with `2 ^ e ≤ n / d`, for `n` and `d` other than zero. -/
def binaryOrder (n d : Nat) : Int :=
  let guess := (n.log2 : Int) - d.log2
  if reachesPower n d guess then guess else guess - 1

namespace Binary64

/-- The number nearest to `± n / d`, a tie to the even mantissa; zero keeps the sign. -/
def ofRatio (negative : Bool) (n d : Nat) : Binary64 :=
  if n = 0 then zero negative
  else
    let exponent := max (binaryOrder n d - 52) (-1074)
    let mantissa := divScaled n d exponent
    if mantissa = 2 ^ (53 : Nat) then assemble negative (2 ^ (52 : Nat)) (exponent + 1)
    else assemble negative mantissa exponent

def ofDyadic (negative : Bool) (n : Nat) : Int → Binary64
  | .ofNat k => ofRatio negative (n * 2 ^ k) 1
  | .negSucc k => ofRatio negative n (2 ^ (k + 1))

/-- The number nearest to an integer; none when the integer is out of range. -/
def ofInt? (i : Int) : Option Binary64 :=
  match ofRatio (i < 0) i.natAbs 1 with
  | .finite s m e h => some (.finite s m e h)
  | _ => none

end Binary64

end VectorPath
