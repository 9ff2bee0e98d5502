import VectorPath.Value.Basic

/-!
# Equality of values

Values of different sorts are different, except that truth values and numbers of both kinds are
compared by exact value. Commands are equal when their forms and all their fields are, so an
absolute command never equals a relative one. No value that holds `nan` equals another.
-/

namespace VectorPath.Value

mutual

def sameValue : Value → Value → Bool
  | .null, .null => true
  | .text s, .text t => s == t
  | .list xs, .list ys => sameAll xs ys
  | .tuple xs, .tuple ys => sameAll xs ys
  | .record xs, .record ys => sameEntries xs ys
  | .point x y, .point u v => sameValue x u && sameValue y v
  | .command f xs, .command g ys => f == g && sameAll xs ys
  | .bool b, .bool c => b == c
  | .bool b, .number n => n.sameValue (.int (if b then 1 else 0))
  | .number n, .bool b => n.sameValue (.int (if b then 1 else 0))
  | .number m, .number n => m.sameValue n
  | _, _ => false

def sameAll : List Value → List Value → Bool
  | [], [] => true
  | x :: xs, y :: ys => sameValue x y && sameAll xs ys
  | _, _ => false

def sameEntries : List (String × Value) → List (String × Value) → Bool
  | [], [] => true
  | (j, x) :: xs, (k, y) :: ys => j == k && sameValue x y && sameEntries xs ys
  | _, _ => false

end

mutual

/-- The sort of the first part of a value that cannot belong to a set. -/
def mutablePart? : Value → Option String
  | .list _ => some "list"
  | .record _ => some "dict"
  | .tuple items => mutableItem? items
  | .point x y => (mutablePart? x).or (mutablePart? y)
  | .command _ fields => mutableItem? fields
  | _ => none

def mutableItem? : List Value → Option String
  | [] => none
  | v :: rest => (mutablePart? v).or (mutableItem? rest)

end

/-- The position of the first value equal to the one at each position. -/
def firstEqual (values : List Value) : List Nat :=
  values.zipIdx.map fun (v, i) =>
    ((values.take i).findIdx? fun u => sameValue u v).getD i

/-- Adds a value to a set of values unless an equal one is in it. -/
def addNew (set : List Value) (v : Value) : List Value :=
  if set.any fun u => sameValue u v then set else set ++ [v]

/-- The set of some values, in the order in which they first appear. -/
def distinct (values : List Value) : List Value := values.foldl addNew []

def distinctCount (values : List Value) : Nat := (distinct values).length

end VectorPath.Value
