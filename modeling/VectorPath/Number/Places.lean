import VectorPath.CoreNumerals
import VectorPath.Number.Nearest

/-!
# Rounding to decimal places

The exact value is rounded to a multiple of `10 ^ (-places)`, a tie to the even multiple, and
the result is the binary64 number nearest to that multiple. A number that is not finite stays
as it is, and so does an integer.
-/

namespace VectorPath.Binary64

open scoped CoreNumerals

/-- The number of units of `10 ^ (-places)` nearest to `m / 2 ^ k`. -/
def unitsAt (places m k : Nat) : Nat := divHalfEven (m * 10 ^ places) (2 ^ k)

def toPlaces (places : Nat) : Binary64 → Binary64
  | .finite s m (.negSucc k) _ => ofRatio s (unitsAt places m (k + 1)) (10 ^ places)
  | x => x

end VectorPath.Binary64
