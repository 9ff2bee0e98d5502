import VectorPath.Error
import VectorPath.Number.Reading

/-!
# Numbers given as texts

A value that is a number can be given as a text of it. An integer may have as many digits as the
text of an integer, zeros in front included.
-/

namespace VectorPath.Value

def digitCount (s : String) : Nat :=
  (s.toList.filter fun c => isDecimalDigit (Text.plainDigit c)).length

/-- The integer that a text gives. -/
def ofIntegerText (s : String) : Outcome Value :=
  match readInteger? s with
  | none => mishap (.notIntegerText (Text.quoted s))
  | some i =>
      if Layout.digitLimit < digitCount s then mishap (.numeralTooLong (digitCount s))
      else .ok (.int i)

/-- The binary64 number that a text gives. -/
def ofFloatText (s : String) : Outcome Value :=
  match Binary64.ofText? s with
  | none => mishap (.notFloatText (Text.quoted s))
  | some x => .ok (.float x)

end VectorPath.Value
