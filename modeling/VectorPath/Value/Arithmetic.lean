import VectorPath.CoreNumerals
import VectorPath.Error

/-!
# Sums and products of values

Numbers and truth values are added, subtracted and multiplied as numbers. Sequences of one sort
can be joined and a sequence can be repeated; everything else is a mishap that names the sorts
of the operands.
-/

namespace VectorPath.Value

open scoped CoreNumerals

/-- The result of an operation on numbers, which fails for an integer out of range. -/
def ofNumber? : Option Number → Outcome Value
  | some n => .ok (.number n)
  | none => mishap .tooLargeForFloat

/-- The sizes of the longest text and of the longest other sequence that can be held. -/
def textLimit : Nat := 1000000000

def itemLimit : Nat := 100000000

/-- The least number of items that no sequence can be asked for. -/
def indexLimit : Nat := 2 ^ (63 : Nat)

/-- A text `n` times over, joined from two halves. -/
def repeatText (n : Nat) (s : String) : String :=
  if n = 0 ∨ s = "" then ""
  else
    let half := repeatText (n / 2) s
    if n % 2 = 0 then half ++ half else half ++ half ++ s

/-- A list `n` times over, joined from two halves. -/
def repeatItems {α : Type} (n : Nat) (items : List α) : List α :=
  if n = 0 ∨ items.isEmpty then []
  else
    let half := repeatItems (n / 2) items
    if n % 2 = 0 then half ++ half else half ++ half ++ items

/-- How often a sequence is repeated: `n` times, or not at all for a negative `n`, if so many
items of the given size can be asked for and held. -/
def repetitions (n : Int) (size limit : Nat) (overflow : Mishap) : Outcome Nat :=
  if n < -(indexLimit : Int) ∨ (indexLimit : Int) ≤ n then mishap .repetitionRange
  else if indexLimit ≤ n.toNat * size then mishap overflow
  else if limit < n.toNat * size then mishap .tooLong
  else .ok n.toNat

def integer? (v : Value) : Option Int :=
  match v.number? with
  | some (.int i) => some i
  | _ => none

def isSequence : Value → Bool
  | .text _ | .list _ | .tuple _ => true
  | _ => false

def multiplySequence (v other : Value) : Outcome Value :=
  match integer? other with
  | none => mishap (.repetition other.sort)
  | some n =>
      match v with
      | .text s => do
          return .text (repeatText (← repetitions n s.length textLimit .textTooLong) s)
      | .list items => do
          return .list (repeatItems (← repetitions n items.length itemLimit .tooLong) items)
      | .tuple items => do
          return .tuple (repeatItems (← repetitions n items.length itemLimit .tooLong) items)
      | _ => mishap (.operands "*" v.sort other.sort)

def add (a b : Value) : Outcome Value :=
  match a.number?, b.number? with
  | some m, some n => ofNumber? (m.add? n)
  | _, _ =>
      match a, b with
      | .text s, .text t => .ok (.text (s ++ t))
      | .list xs, .list ys => .ok (.list (xs ++ ys))
      | .tuple xs, .tuple ys => .ok (.tuple (xs ++ ys))
      | .text _, _ | .list _, _ | .tuple _, _ => mishap (.concatenation a.sort b.sort)
      | _, _ => mishap (.operands "+" a.sort b.sort)

def sub (a b : Value) : Outcome Value :=
  match a.number?, b.number? with
  | some m, some n => ofNumber? (m.sub? n)
  | _, _ => mishap (.operands "-" a.sort b.sort)

def mul (a b : Value) : Outcome Value :=
  match a.number?, b.number? with
  | some m, some n => ofNumber? (m.mul? n)
  | _, _ =>
      if a.isSequence then multiplySequence a b
      else if b.isSequence then multiplySequence b a
      else mishap (.operands "*" a.sort b.sort)

end VectorPath.Value
