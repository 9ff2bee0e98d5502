import VectorPath.CoreNumerals
import VectorPath.Number.Nearest

/-!
# The shortest decimal that reads back

The reals that round to a finite number form an interval around it, closed exactly when the
mantissa is even. For one digit, two digits and so on, the decimals of that many digits form a
grid, and only the two grid points next to the number need a test: if any point of the grid lies
in the interval, one of these does. The first grid with a hit wins; of two hits the nearer one
is taken, and a tie goes to the even last digit. Seventeen digits always suffice.
-/

namespace VectorPath

open scoped CoreNumerals

structure Decimal where
  digits : Nat
  exponent : Int
  deriving DecidableEq, Repr

namespace Decimal

/-- Least number of places `j ≥ start` with `d ≤ n * 10 ^ j`, looked for `fuel` times. -/
def placesToOne (n d : Nat) : Nat → Nat → Nat
  | 0, j => j
  | fuel + 1, j => if d ≤ n * 10 ^ j then j else placesToOne n d fuel (j + 1)

/-- The `k` with `10 ^ (k - 1) ≤ n / d < 10 ^ k`, for a quotient not below `10 ^ (-400)`. -/
def decimalOrder (n d : Nat) : Int :=
  if d ≤ n then (Nat.toDigits 10 (n / d)).length
  else 1 - (placesToOne n d 400 0 : Int)

/-- Removes up to `fuel` zeros from the end of the digits. -/
def trimZeros : Nat → Decimal → Decimal
  | 0, x => x
  | fuel + 1, x =>
      if x.digits ≠ 0 ∧ x.digits % 10 = 0 then
        trimZeros fuel ⟨x.digits / 10, x.exponent + 1⟩
      else x

/-- The interval of reals that round to a number, in quarters of a unit of its mantissa. -/
structure Interval where
  low : Nat
  value : Nat
  high : Nat
  closed : Bool
  /-- What the three numerators are divided by. -/
  unit : Nat

/-- Below a power of two the numbers lie twice as close, so half of the lower gap is smaller. -/
def lowerQuarters (m : Nat) (e : Int) : Nat :=
  if m = 2 ^ (52 : Nat) ∧ e ≠ -1074 then 4 * m - 1 else 4 * m - 2

def Interval.of (m : Nat) (e : Int) : Interval :=
  let up := 2 ^ e.toNat
  { low := lowerQuarters m e * up
    value := 4 * m * up
    high := (4 * m + 2) * up
    closed := m % 2 == 0
    unit := 4 * 2 ^ (-e).toNat }

/-- The interval measured in units of `10 ^ u`. -/
def Interval.scaled (i : Interval) (u : Int) : Interval :=
  let down := 10 ^ (-u).toNat
  { low := i.low * down
    value := i.value * down
    high := i.high * down
    closed := i.closed
    unit := i.unit * 10 ^ u.toNat }

def Interval.contains (i : Interval) (q : Nat) : Bool :=
  if i.closed then i.low ≤ q * i.unit && q * i.unit ≤ i.high
  else i.low < q * i.unit && q * i.unit < i.high

/-- The one of two neighbouring grid points `q` and `q + 1` that is nearer, or the even one. -/
def Interval.nearer (i : Interval) (q : Nat) : Nat :=
  if 2 * (i.value - q * i.unit) < i.unit then q
  else if i.unit < 2 * (i.value - q * i.unit) then q + 1
  else q + q % 2

/-- The grid point next to the value that lies in the interval, if one does. -/
def Interval.hit? (i : Interval) : Option Nat :=
  let q := i.value / i.unit
  match i.contains q, i.contains (q + 1) with
  | true, true => some (i.nearer q)
  | true, false => some q
  | false, true => some (q + 1)
  | false, false => none

/-- Tries grids of ever more digits, starting with units of `10 ^ u`. -/
def firstHit (i : Interval) : Nat → Int → Decimal
  | 0, u => ⟨(i.scaled u).value / (i.scaled u).unit, u⟩
  | fuel + 1, u =>
      match (i.scaled u).hit? with
      | some q => ⟨q, u⟩
      | none => firstHit i fuel (u - 1)

/-- The shortest decimal that rounds to `m * 2 ^ e`, and the nearest of those. -/
def shortest (m : Nat) (e : Int) : Decimal :=
  let i := Interval.of m e
  trimZeros 20 (firstHit i 17 (decimalOrder i.value i.unit - 1))

end Decimal

end VectorPath
