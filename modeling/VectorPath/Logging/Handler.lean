import VectorPath.Files.Basic
import VectorPath.Logging.Level

/-!
# Handlers of log records

All log records of a process are given to every handler on one list. Other code may have put
handlers there, so those that setting up logging puts there bear a mark, by which the next setup
finds them again.
-/

namespace VectorPath

/-- Where a handler writes the lines of records. -/
inductive Outlet
  | console
  | file (location : Location)
  deriving DecidableEq, Repr

/-- A handler on the list. What a foreign one does with records is not seen from here. -/
inductive Handler
  | marked (outlet : Outlet) (threshold : Level)
  | foreign (number : Nat)
  deriving DecidableEq, Repr

namespace Handler

def isMarked : Handler → Bool
  | marked .. => true
  | foreign _ => false

/-- Removes the marked handlers one by one. The loop runs over a copy, as the list changes. -/
def removeMarked (handlers : List Handler) : List Handler :=
  handlers.foldl (fun left h => if h.isMarked then left.erase h else left) handlers

end Handler

end VectorPath
