import VectorPath.CoreNumerals
import VectorPath.Number.Shortest

/-!
# The text of a number

A decimal is written positionally when its leading digit stands for `10 ^ (-4)` to `10 ^ 15`, and
otherwise with one digit before the point and an exponent that has a sign and at least two
digits. Two layouts are in use. Path text leaves a whole number without a point; the display
form of a value ends it with `.0`. They differ in nothing else.
-/

namespace VectorPath

open scoped CoreNumerals

structure Layout where
  /-- Least power of ten of a leading digit that is written positionally. -/
  least : Int
  /-- Least power of ten that is too large for it. -/
  limit : Int
  /-- What follows a whole number written positionally. -/
  whole : String

namespace Layout

def path : Layout := ⟨-4, 16, ""⟩

/-- Numbers in the display form of a value. -/
def display : Layout := ⟨-4, 16, ".0"⟩

def natural (n : Nat) : List Char := Nat.toDigits 10 n

/-- The digits of an exponent, at least two. -/
def exponentDigits (n : Nat) : List Char :=
  if n < 10 then '0' :: natural n else natural n

def exponentText (e : Int) : List Char :=
  (if e < 0 then '-' else '+') :: exponentDigits e.natAbs

/-- One digit, a point if more digits follow, and the exponent. -/
def scientific : List Char → Int → List Char
  | [], order => 'e' :: exponentText order
  | [c], order => c :: 'e' :: exponentText order
  | c :: rest, order => c :: '.' :: rest ++ 'e' :: exponentText order

/-- Digits whose first one stands for `10 ^ order`, with a point where it belongs. -/
def positional (layout : Layout) (digits : List Char) (order : Int) : List Char :=
  if order < 0 then
    '0' :: '.' :: List.replicate (-order - 1).toNat '0' ++ digits
  else if digits.length ≤ order.toNat + 1 then
    digits ++ List.replicate (order.toNat + 1 - digits.length) '0' ++ layout.whole.toList
  else
    digits.take (order.toNat + 1) ++ '.' :: digits.drop (order.toNat + 1)

def decimal (layout : Layout) (x : Decimal) : List Char :=
  let digits := natural x.digits
  let order := x.exponent + digits.length - 1
  if layout.least ≤ order ∧ order < layout.limit then layout.positional digits order
  else scientific digits order

def minus (negative : Bool) : List Char := if negative then ['-'] else []

def integer (i : Int) : List Char := minus (i < 0) ++ natural i.natAbs

/-- The most digits that the text of an integer may have. -/
def digitLimit : Nat := 4300

/-- Whether an integer has too many digits for a text; its sign does not count. -/
def isTooLong (i : Int) : Bool := 10 ^ digitLimit ≤ i.natAbs

/-- What is said of an integer with too many digits, with a detail about its text. -/
def limitText (detail : String) : String :=
  "Exceeds the limit (" ++ toString digitLimit ++ " digits) for integer string conversion" ++
    detail ++ "; use sys.set_int_max_str_digits() to increase the limit"

/-- What is said of a text of an integer with too many digits. -/
def numeralLimitText (digits : Nat) : String :=
  limitText (": value has " ++ toString digits ++ " digits")

end Layout

/-- The display form of a binary64 number: the shortest text that reads back. -/
def Binary64.display : Binary64 → String
  | .nan => "nan"
  | .infinity s => if s then "-inf" else "inf"
  | .finite s m e _ =>
      String.ofList (Layout.minus s ++
        if m = 0 then '0' :: Layout.display.whole.toList
        else Layout.display.decimal (Decimal.shortest m e))

end VectorPath
