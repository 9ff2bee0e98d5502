import VectorPath.Number.Layout
import VectorPath.Number.Reading

/-!
# Integers in settings

A setting that is an integer may be written with blanks around it, a sign, leading zeros,
underscores that stand singly between other characters, and a fraction of zeros. The digits are
those of ASCII. A minus sign stands before or after the leading zeros, and a plus sign only
before them. What is left without all this must not be longer than the text of an integer may be.
-/

namespace VectorPath.Text

/-- A zero, or an underscore among leading zeros. -/
def isZeroFiller (c : Char) : Bool := c == '0' || c == '_'

/-- Drops leading zeros, and underscores among them, of what begins with a digit or a minus sign.
The last one stays before a point and at the end. -/
def dropZeros : List Char → Option (List Char)
  | [] => none
  | c :: rest =>
      if c == '-' then some (c :: rest)
      else if !isDecimalDigit c then none
      else if c != '0' then some (c :: rest)
      else
        let last := (rest.takeWhile isZeroFiller).getLast?.getD '0'
        match rest.dropWhile isZeroFiller with
        | [] => some [last]
        | '.' :: more => some (last :: '.' :: more)
        | d :: more => if isDecimalDigit d || d == '-' then some (d :: more) else none

/-- Drops leading zeros behind a sign, and the sign if it is a plus. -/
def dropSignedZeros : List Char → Option (List Char)
  | '+' :: '-' :: _ => none
  | '+' :: rest => dropZeros rest
  | '-' :: rest => (dropZeros rest).map ('-' :: ·)
  | cs => dropZeros cs

/-- Drops the first point and what follows it, if that is one zero or more and nothing else. -/
def dropFraction (cs : List Char) : List Char :=
  match cs.dropWhile (· != '.') with
  | _ :: c :: rest => if (c :: rest).all (· == '0') then cs.takeWhile (· != '.') else cs
  | _ => cs

/-- Whether an underscore stands last or next to another. -/
def hasStrayUnderscore : List Char → Bool
  | [] => false
  | ['_'] => true
  | '_' :: '_' :: _ => true
  | _ :: rest => hasStrayUnderscore rest

/-- Removes underscores if each stands singly between other characters. -/
def dropUnderscores (cs : List Char) : List Char :=
  if cs.head? == some '_' || hasStrayUnderscore cs then cs else cs.filter (· != '_')

/-- A natural number in its plain form: digits without a leading zero. -/
def plainNatural? (cs : List Char) : Option Nat :=
  if cs.isEmpty || !cs.all isDecimalDigit || (cs.head? == some '0' && cs.length != 1) then none
  else some (digitsValue cs)

/-- An integer in its plain form: a natural number, or one behind a minus sign. -/
def plainInteger? : List Char → Option Int
  | '-' :: rest => (plainNatural? rest).map fun n => -(n : Int)
  | cs => (plainNatural? cs).map fun n => (n : Int)

/-- Whether a text begins with an integer without leading zeros that is too long, sign included. -/
def beginsTooLong (cs : List Char) : Bool :=
  let sign := if cs.head? == some '-' then 1 else 0
  let digits := (cs.drop sign).takeWhile isDecimalDigit
  digits.head? != some '0' && Layout.digitLimit < sign + digits.length

/-- The integer that a text in settings gives. -/
def settingInteger? (s : String) : Option Int := do
  let cs ← dropSignedZeros (trimBoth isBlank s.toList)
  let plain := dropUnderscores (dropFraction cs)
  if beginsTooLong plain then none else plainInteger? plain

end VectorPath.Text
