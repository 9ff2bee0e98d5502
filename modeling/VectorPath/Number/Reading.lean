import VectorPath.CoreNumerals
import VectorPath.Number.Nearest
import VectorPath.Text.Blank
import VectorPath.Text.Digit

/-!
# Reading decimal text

The value of a run of digits, and the binary64 number nearest to a decimal. A decimal far out of
range is settled from its length alone, so an exponent of any size costs nothing. A number given
as a text may have blanks around it, single underscores between its digits, and digits of any
script.
-/

namespace VectorPath

open scoped CoreNumerals

def digitValue (c : Char) : Nat := c.toNat - '0'.toNat

def digitsValue (cs : List Char) : Nat :=
  cs.foldl (fun n c => 10 * n + digitValue c) 0

def isDecimalDigit (c : Char) : Bool := '0' ≤ c && c ≤ '9'

/-- The number nearest to `± coefficient * 10 ^ exponent`. -/
def Binary64.ofDecimal (negative : Bool) (coefficient : Nat) (exponent : Int) : Binary64 :=
  let size := (Nat.toDigits 10 coefficient).length + exponent
  if coefficient = 0 then zero negative
  else if 310 < size then infinity negative
  else if size < -330 then zero negative
  else
    match exponent with
    | .ofNat k => ofRatio negative (coefficient * 10 ^ k) 1
    | .negSucc k => ofRatio negative coefficient (10 ^ (k + 1))

/-- The parts of a decimal numeral with at least one digit before or after the point. -/
structure Numeral where
  whole : List Char
  fraction : List Char
  exponent : Int
  deriving Repr

namespace Numeral

/-- The exponent that begins with `e`, and its length; none when no digits follow. -/
def scanExponent : List Char → Option (Int × Nat)
  | [] => none
  | c :: rest =>
      if c = 'e' ∨ c = 'E' then
        let negative := rest.head? = some '-'
        let signed := if negative ∨ rest.head? = some '+' then 1 else 0
        let digits := (rest.drop signed).takeWhile isDecimalDigit
        if digits.isEmpty then none
        else
          let n : Int := digitsValue digits
          some (if negative then -n else n, 1 + signed + digits.length)
      else none

def toBinary64 (x : Numeral) (negative : Bool) : Binary64 :=
  .ofDecimal negative (digitsValue (x.whole ++ x.fraction)) (x.exponent - x.fraction.length)

/-- A whole text as a numeral without a sign. -/
def ofText? (cs : List Char) : Option Numeral :=
  let whole := cs.takeWhile isDecimalDigit
  let rest := cs.dropWhile isDecimalDigit
  let pointed := rest.head? == some '.'
  let fraction := if pointed then (rest.drop 1).takeWhile isDecimalDigit else []
  let tail := if pointed then (rest.drop 1).dropWhile isDecimalDigit else rest
  if whole.isEmpty && fraction.isEmpty then none
  else if tail.isEmpty then some ⟨whole, fraction, 0⟩
  else
    match scanExponent tail with
    | some (exponent, taken) =>
        if taken = tail.length then some ⟨whole, fraction, exponent⟩ else none
    | none => none

end Numeral

/-- A text without a sign as a number: a numeral, `inf`, `infinity` or `nan`. -/
def Binary64.ofUnsigned? (negative : Bool) (cs : List Char) : Option Binary64 :=
  match cs.map Char.toLower with
  | ['i', 'n', 'f'] => some (.infinity negative)
  | ['i', 'n', 'f', 'i', 'n', 'i', 't', 'y'] => some (.infinity negative)
  | ['n', 'a', 'n'] => some .nan
  | _ => (Numeral.ofText? cs).map (·.toBinary64 negative)

/-- Removes underscores, each of which must stand between two digits. -/
def withoutUnderscores : (afterDigit : Bool) → List Char → Option (List Char)
  | _, [] => some []
  | afterDigit, c :: rest =>
      if c = '_' then
        if afterDigit && rest.head?.any isDecimalDigit then withoutUnderscores false rest
        else none
      else (withoutUnderscores (isDecimalDigit c) rest).map (c :: ·)

/-- What a text of a number holds without the blanks around it and the underscores in it. -/
def numeralText? (text : String) : Option (List Char) :=
  withoutUnderscores false
    ((Text.trimBoth Text.isBlankOrSeparator text.toList).map Text.plainDigit)

/-- A text as a number, with an optional sign. -/
def Binary64.ofText? (text : String) : Option Binary64 := do
  match ← numeralText? text with
  | '-' :: rest => ofUnsigned? true rest
  | '+' :: rest => ofUnsigned? false rest
  | cs => ofUnsigned? false cs

/-- A run of at least one digit as a natural number. -/
def readNatural? (cs : List Char) : Option Nat :=
  if cs.isEmpty || !cs.all isDecimalDigit then none else some (digitsValue cs)

/-- A text of digits with an optional sign as an integer. -/
def readInteger? (text : String) : Option Int := do
  match ← numeralText? text with
  | '-' :: rest => (readNatural? rest).map fun n => -(n : Int)
  | '+' :: rest => (readNatural? rest).map fun n => (n : Int)
  | cs => (readNatural? cs).map fun n => (n : Int)

end VectorPath
