import VectorPath.CoreNumerals
import VectorPath.Value.Equality

/-!
# Hashes of values

A set looks for a value among those of the same hash, so values that are equal must have one hash.
The hash of a number is its remainder modulo the prime `2 ^ 61 - 1`, with its sign; a power of two
leaves the power whose exponent is reduced modulo 61, also when the exponent is negative. Points and
commands join the hashes of their fields, and the form of a command has no part in its hash.
-/

namespace VectorPath

open scoped CoreNumerals

namespace Number

def hashModulus : Nat := 2 ^ (61 : Nat) - 1

/-- The remainder of `m * 2 ^ e`. -/
def residue (m : Nat) (e : Int) : Nat := m * 2 ^ (e % 61).toNat % hashModulus

def infinityHash : Nat := 314159

/-- Minus one is no hash. -/
def withoutMinusOne (i : Int) : Int := if i = -1 then -2 else i

/-- The hash of a number; `nan` equals nothing, and its hash does not matter. -/
def hash : Number → Int
  | .int i => withoutMinusOne (Binary64.signed (i < 0) (residue i.natAbs 0))
  | .float (.finite s m e _) => withoutMinusOne (Binary64.signed s (residue m e))
  | .float (.infinity s) => Binary64.signed s infinityHash
  | .float .nan => 0

end Number

/-- What the hash of a value leaves open: how hashes of fields are joined, and the hash of a value
that is no number, point or command. -/
structure Hashing where
  join : List Int → Int
  other : Value → Int

namespace Hashing

mutual

def hash (h : Hashing) : Value → Int
  | .bool b => (Number.int (if b then 1 else 0)).hash
  | .number n => n.hash
  | .point x y => h.join [hash h x, hash h y]
  | .command _ fields => h.join (hashes h fields)
  | v => h.other v

def hashes (h : Hashing) : List Value → List Int
  | [] => []
  | v :: rest => hash h v :: hashes h rest

end

/-- Whether a set holds a value: only values with the same hash are compared with it. -/
def holds (h : Hashing) (set : List Value) (v : Value) : Bool :=
  set.any fun u => h.hash u == h.hash v && Value.sameValue u v

/-- The set of some values, in the order in which they first appear. -/
def distinct (h : Hashing) (values : List Value) : List Value :=
  values.foldl (fun set v => if h.holds set v then set else set ++ [v]) []

end Hashing

end VectorPath
