import VectorPath.Command.Basic
import VectorPath.CoreNumerals
import VectorPath.Error
import VectorPath.Text.LetterCase

/-!
# Statistics

What a run has written and what has failed, with a count for every letter in the order in which
the letters first appeared. The number of relative commands is not kept but computed from the
case of the letters.
-/

namespace VectorPath

open scoped CoreNumerals

structure Statistics where
  paths : Nat := 0
  segments : Nat := 0
  errorCount : Nat := 0
  /-- How many commands had each letter. -/
  counts : List (String × Int) := []
  /-- The source and the message of every fault. -/
  errors : List (String × String) := []
  deriving DecidableEq, Repr, Inhabited

namespace Statistics

def countLetter (letter : String) : List (String × Int) → List (String × Int)
  | [] => [(letter, 1)]
  | entry :: rest =>
      if entry.1 = letter then (letter, entry.2 + 1) :: rest
      else entry :: countLetter letter rest

def countLetters (cs : List Command) (counts : List (String × Int)) : List (String × Int) :=
  cs.foldl (fun counts c => countLetter (String.singleton c.letter) counts) counts

/-- A path of these commands has been written. -/
def encoded (s : Statistics) (cs : List Command) : Statistics :=
  { s with
    paths := s.paths + 1
    segments := s.segments + cs.length
    counts := countLetters cs s.counts }

/-- A fault has been met in a source. -/
def failed (s : Statistics) (source : String) (f : Fault) : Statistics :=
  { s with errorCount := s.errorCount + 1, errors := s.errors ++ [(source, f.message)] }

/-- How many commands had a small letter. -/
def relativeCount (s : Statistics) : Int :=
  ((s.counts.filter fun entry => Text.isLower entry.1).map Prod.snd).sum

end Statistics

end VectorPath
