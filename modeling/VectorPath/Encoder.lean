import VectorPath.Command.Basic
import VectorPath.Number.Places
import VectorPath.Settings

/-!
# Path text

A command is written as its letter followed by its parameters: the two coordinates of a point
with a space between them, a number, or a flag as one digit. The points of a curve are separated
by a comma and a space and the parameters of an arc by a space; commands are joined by single
spaces. The first value that cannot be written stops the path.
-/

namespace VectorPath

/-- The text of a binary64 number in path text; zero has no sign. -/
def Binary64.pathText : Binary64 → String
  | .nan => "NaN"
  | .infinity s => if s then "-Infinity" else "Infinity"
  | .finite s m e _ =>
      if m = 0 then "0"
      else String.ofList (Layout.minus s ++ Layout.path.decimal (Decimal.shortest m e))

def integerText (i : Int) : Outcome String :=
  if Layout.isTooLong i then mishap .integerTextTooLong
  else .ok (String.ofList (Layout.integer i))

/-- The shortest text of a number; a truth value counts as a number. -/
def numberText (v : Value) : Outcome String :=
  match v.number? with
  | some (.int i) => integerText i
  | some (.float x) => .ok x.pathText
  | none => mishap (.notReal v.sort)

def flagText (v : Value) : String := if v.truth then "1" else "0"

namespace WritingSettings

/-- Refuses a number that the policy does not let pass. -/
def allow (s : WritingSettings) (v : Value) : Outcome Unit :=
  match s.policy, v with
  | .reject, .number (.float x) => if x.isFinite then .ok () else fault (.nonFinite v)
  | _, _ => .ok ()

/-- Rounds a number; integers and truth values need no rounding. -/
def round (s : WritingSettings) (v : Value) : Outcome Value :=
  match s.precision, v with
  | none, v => .ok v
  | some _, .number (.int i) => .ok (.number (.int i))
  | some _, .bool b => .ok (.bool b)
  | some places, .number (.float x) => .ok (.number (.float (x.toPlaces places.val)))
  | some _, v => mishap (.noPlaces v.sort)

def number (s : WritingSettings) (v : Value) : Outcome String := do
  s.allow v
  numberText (← s.round v)

def point (s : WritingSettings) (p : Point) : Outcome String := do
  let x ← s.number p.x
  let y ← s.number p.y
  return x ++ " " ++ y

def parameter (s : WritingSettings) : Parameter → Outcome String
  | .point p => s.point p
  | .number v => s.number v
  | .flag v => .ok (flagText v)

/-- What stands between the parameters of a command. -/
def separator : Kind → String
  | .arcTo => " "
  | _ => ", "

def command (s : WritingSettings) (c : Command) : Outcome String := do
  let parameters ← c.parameters.mapM s.parameter
  return String.singleton c.letter ++ joinWith (separator c.form.kind) parameters

/-- The text of a value that must be a command. -/
def item (s : WritingSettings) (v : Value) : Outcome String :=
  match Command.ofValue? v with
  | some c => s.command c
  | none => do mishap (.notACommand (← v.shown))

def path (s : WritingSettings) (items : List Value) : Outcome String := do
  return joinWith " " (← items.mapM s.item)

def commands (s : WritingSettings) (cs : List Command) : Outcome String := do
  return joinWith " " (← cs.mapM s.command)

/-- The text of the path that a value yields. -/
def pathOf (s : WritingSettings) (v : Value) : Outcome String := do
  s.path (← v.iterate)

end WritingSettings

end VectorPath
