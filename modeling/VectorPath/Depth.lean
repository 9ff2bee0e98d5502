/-!
# How deep things may nest

Components inside components and brackets inside brackets take calls inside calls, and there is room
for only so many of them. How much room is left when a drawing or a text begins depends on what is
under way by then, so the limits stay open.
-/

namespace VectorPath

class Depth where
  /-- How many calls of a pen may be under way inside each other: enough to draw at all, and no more
  than where nothing else is under way. -/
  calls : Nat
  four_le_calls : 4 ≤ calls
  calls_le : calls ≤ 990
  /-- How many brackets of a text may be open inside each other: enough for the points of a command
  in a document. -/
  brackets : Nat
  three_le_brackets : 3 ≤ brackets

namespace Depth

/-- The limits where nothing else is under way. -/
scoped instance whole : Depth where
  calls := 990
  four_le_calls := by decide
  calls_le := by decide
  brackets := 975
  three_le_brackets := by decide

end Depth

end VectorPath
