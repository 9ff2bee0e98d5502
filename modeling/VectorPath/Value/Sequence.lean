import VectorPath.Error

/-!
# Taking values apart

A pair is unpacked from whatever yields exactly two items, and an item is taken by its position.
Each way of failing has its own mishap.
-/

namespace VectorPath.Value

def iterate (v : Value) : Outcome (List Value) :=
  match v.items? with
  | some items => .ok items
  | none => mishap (.notIterable v.sort)

def unpack (n : Nat) (v : Value) : Outcome (List Value) :=
  match v.items? with
  | none => mishap (.notAPair v.sort)
  | some items =>
      if items.length < n then mishap (.tooFew n items.length)
      else if n < items.length then mishap (.tooMany n)
      else .ok items

def pair (v : Value) : Outcome (Value × Value) :=
  match v.items? with
  | none => mishap (.notAPair v.sort)
  | some [x, y] => .ok (x, y)
  | some items => if items.length < 2 then mishap (.tooFew 2 items.length) else mishap (.tooMany 2)

def item (v : Value) (i : Nat) : Outcome Value :=
  match v with
  | .list items => at? "list" items
  | .tuple items => at? "tuple" items
  | .text s => at? "string" (s.toList.map fun c => .text (String.singleton c))
  | .record _ => mishap (.missingKey (toString i))
  | v => mishap (.notIndexable v.sort)
where
  at? (sort : String) (items : List Value) : Outcome Value :=
    match items[i]? with
    | some v => .ok v
    | none => mishap (.outOfRange sort)

def field (v : Value) (key : String) : Outcome Value :=
  match v with
  | .record entries =>
      match lookup key entries with
      | some v => .ok v
      | none => mishap (.missingKey (Text.quoted key))
  | .list _ => mishap .listKey
  | .text _ => mishap .textKey
  | .tuple _ => mishap .tupleKey
  | v => mishap (.notIndexable v.sort)

end VectorPath.Value
