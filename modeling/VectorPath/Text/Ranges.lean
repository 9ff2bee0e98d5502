/-!
# Ranges of characters

A class of characters is listed as the first and the last code point of each of its ranges.
-/

namespace VectorPath.Text

def inRanges (ranges : List (Nat × Nat)) (n : Nat) : Bool :=
  ranges.any fun (first, last) => first ≤ n && n ≤ last

end VectorPath.Text
