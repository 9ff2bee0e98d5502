import VectorPath.Value.Sequence

/-!
# Points and commands

A command is a shape with a flag for its relative form. Each shape has the fields of its kind:
points for point fields, and values of any sort for number and flag fields, which are looked at
only when the command is written. The parameters of a shape are its fields in order, so what
holds for all kinds can be said once.
-/

namespace VectorPath

structure Point where
  x : Value
  y : Value
  deriving Inhabited

namespace Point

def toValue (p : Point) : Value := .point p.x p.y

/-- A point stands for itself; anything else must be a pair. -/
def ofValue : Value → Outcome Point
  | .point x y => .ok ⟨x, y⟩
  | v => do
      let (x, y) ← v.pair
      return ⟨x, y⟩

theorem ofValue_of_pair {v x y : Value} (h : v.pair = .ok (x, y)) : ofValue v = .ok ⟨x, y⟩ := by
  unfold ofValue
  split
  · cases h
  · rw [h]
    rfl

/-- The point with the coordinates under the keys `x` and `y`. -/
def ofRecord (v : Value) : Outcome Point := do
  let x ← v.field "x"
  let y ← v.field "y"
  return ⟨x, y⟩

def toPair (p : Point) : Value := .tuple [p.x, p.y]

def toRecord (p : Point) : Value := .record [("x", p.x), ("y", p.y)]

end Point

/-- The fields of a command of each kind. -/
inductive Shape
  | moveTo (point : Point)
  | lineTo (point : Point)
  | horizontalLineTo (x : Value)
  | verticalLineTo (y : Value)
  | closePath
  | curveTo (control1 control2 finish : Point)
  | smoothCurveTo (control2 finish : Point)
  | quadraticCurveTo (control finish : Point)
  | smoothQuadraticCurveTo (finish : Point)
  | arcTo (radii : Point) (angle largeArc sweep : Value) (finish : Point)
  deriving Inhabited

/-- One field of a command. -/
inductive Parameter
  | point (point : Point)
  | number (value : Value)
  | flag (value : Value)
  deriving Inhabited

namespace Parameter

def sort : Parameter → FieldSort
  | .point _ => .point
  | .number _ => .number
  | .flag _ => .flag

def toValue : Parameter → Value
  | .point p => p.toValue
  | .number v => v
  | .flag v => v

/-- A value for a field of a sort; only point fields change or refuse it. -/
def ofValue (sort : FieldSort) (v : Value) : Outcome Parameter :=
  match sort with
  | .point => do return .point (← Point.ofValue v)
  | .number => .ok (.number v)
  | .flag => .ok (.flag v)

end Parameter

namespace Shape

def kind : Shape → Kind
  | moveTo _ => .moveTo
  | lineTo _ => .lineTo
  | horizontalLineTo _ => .horizontalLineTo
  | verticalLineTo _ => .verticalLineTo
  | closePath => .closePath
  | curveTo .. => .curveTo
  | smoothCurveTo .. => .smoothCurveTo
  | quadraticCurveTo .. => .quadraticCurveTo
  | smoothQuadraticCurveTo _ => .smoothQuadraticCurveTo
  | arcTo .. => .arcTo

def parameters : Shape → List Parameter
  | moveTo p => [.point p]
  | lineTo p => [.point p]
  | horizontalLineTo x => [.number x]
  | verticalLineTo y => [.number y]
  | closePath => []
  | curveTo c d p => [.point c, .point d, .point p]
  | smoothCurveTo d p => [.point d, .point p]
  | quadraticCurveTo c p => [.point c, .point p]
  | smoothQuadraticCurveTo p => [.point p]
  | arcTo r a l s p => [.point r, .number a, .flag l, .flag s, .point p]

/-- The shape of a kind with given fields, if they are the fields of that kind. -/
def ofParameters? : Kind → List Parameter → Option Shape
  | .moveTo, [.point p] => some (moveTo p)
  | .lineTo, [.point p] => some (lineTo p)
  | .horizontalLineTo, [.number x] => some (horizontalLineTo x)
  | .verticalLineTo, [.number y] => some (verticalLineTo y)
  | .closePath, [] => some closePath
  | .curveTo, [.point c, .point d, .point p] => some (curveTo c d p)
  | .smoothCurveTo, [.point d, .point p] => some (smoothCurveTo d p)
  | .quadraticCurveTo, [.point c, .point p] => some (quadraticCurveTo c p)
  | .smoothQuadraticCurveTo, [.point p] => some (smoothQuadraticCurveTo p)
  | .arcTo, [.point r, .number a, .flag l, .flag s, .point p] => some (arcTo r a l s p)
  | _, _ => none

theorem ofParameters?_parameters (s : Shape) : ofParameters? s.kind s.parameters = some s := by
  cases s <;> rfl

theorem parameters_sorts (s : Shape) :
    s.parameters.map Parameter.sort = s.kind.fields.map Prod.snd := by
  cases s <;> rfl

end Shape

structure Command where
  relative : Bool
  shape : Shape
  deriving Inhabited

namespace Command

def form (c : Command) : Form := ⟨c.shape.kind, c.relative⟩

def letter (c : Command) : Char := c.form.letter

def parameters (c : Command) : List Parameter := c.shape.parameters

/-- The command of a form with given fields. -/
def ofParameters? (form : Form) (ps : List Parameter) : Option Command :=
  (Shape.ofParameters? form.kind ps).map fun s => ⟨form.relative, s⟩

theorem ofParameters?_parameters (c : Command) :
    ofParameters? c.form c.parameters = some c := by
  simp [ofParameters?, form, parameters, Shape.ofParameters?_parameters]

def toValue (c : Command) : Value := .command c.form (c.parameters.map Parameter.toValue)

/-- The field of a sort that holds a value unchanged. -/
def heldIn (sort : FieldSort) (v : Value) : Option Parameter :=
  match sort, v with
  | .point, .point x y => some (.point ⟨x, y⟩)
  | .point, _ => none
  | .number, v => some (.number v)
  | .flag, v => some (.flag v)

def ofValue? : Value → Option Command
  | .command form fields => do
      if fields.length = form.fields.length then
        let ps ← (List.zipWith (fun entry v => heldIn entry.2 v) form.fields fields).mapM id
        ofParameters? form ps
      else none
  | _ => none

/-- The value of a field in a serialized command: a point becomes a list of two. -/
def serialized : Value → Value
  | .point x y => .list [x, y]
  | v => v

/-- The letter and the fields by name. -/
def toRecord (c : Command) : List (String × Value) :=
  ("command", .text (String.singleton c.letter)) ::
    List.zipWith (fun name p => (name, serialized p.toValue)) c.form.fieldNames c.parameters

def counterpart (c : Command) : Command := { c with relative := !c.relative }

def absolute (s : Shape) : Command := ⟨false, s⟩

end Command

end VectorPath
