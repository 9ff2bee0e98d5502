/-!
# Powers and sums of the core library

Mathlib brings powers and zeros of its own for the numbers of the core library. A module that opens
this scope means those of the core library, whatever else is imported.
-/

namespace VectorPath.CoreNumerals

attribute [scoped instance (high)] instPowNat Zero.ofOfNat0

end VectorPath.CoreNumerals
