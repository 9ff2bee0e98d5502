import VectorPath.CoreNumerals

/-!
# Binary64 numbers

The numbers of the 64-bit binary format, as data: a number that is not finite, or a sign, a
mantissa and an exponent standing for `± mantissa * 2 ^ exponent`. The pair of mantissa and
exponent is canonical, so every finite number other than zero has one representation, and zero
has one for each sign. No machine arithmetic is used anywhere: every operation of the library on
these numbers is exact integer arithmetic followed by one rounding.
-/

namespace VectorPath

open scoped CoreNumerals

/-- A mantissa below `2 ^ 53` with an exponent in range, and full unless the exponent is least. -/
def Canonical (mantissa : Nat) (exponent : Int) : Prop :=
  mantissa < 2 ^ (53 : Nat) ∧ -1074 ≤ exponent ∧ exponent ≤ 971 ∧
    (2 ^ (52 : Nat) ≤ mantissa ∨ exponent = -1074)

instance (mantissa : Nat) (exponent : Int) : Decidable (Canonical mantissa exponent) :=
  inferInstanceAs (Decidable (_ ∧ _ ∧ _ ∧ _))

/-- A number of the 64-bit binary format. -/
inductive Binary64
  | nan
  | infinity (negative : Bool)
  | finite (negative : Bool) (mantissa : Nat) (exponent : Int)
      (canonical : Canonical mantissa exponent)
  deriving DecidableEq

namespace Binary64

theorem canonical_zero : Canonical 0 (-1074) := by decide

def zero (negative : Bool) : Binary64 := .finite negative 0 (-1074) canonical_zero

instance : Inhabited Binary64 := ⟨zero false⟩

/-- The finite number of a canonical pair; a pair that is not canonical is out of range. -/
def assemble (negative : Bool) (mantissa : Nat) (exponent : Int) : Binary64 :=
  if h : Canonical mantissa exponent then .finite negative mantissa exponent h
  else .infinity negative

def isFinite : Binary64 → Bool
  | .finite .. => true
  | _ => false

def isZero : Binary64 → Bool
  | .finite _ m _ _ => m == 0
  | _ => false

def negate : Binary64 → Binary64
  | .nan => .nan
  | .infinity s => .infinity (!s)
  | .finite s m e h => .finite (!s) m e h

def signed (negative : Bool) (mantissa : Nat) : Int :=
  if negative then -(mantissa : Int) else mantissa

theorem assemble_of_canonical {m : Nat} {e : Int} (s : Bool) (h : Canonical m e) :
    assemble s m e = .finite s m e h := by
  simp [assemble, h]

end Binary64

end VectorPath
