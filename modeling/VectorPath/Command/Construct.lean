import VectorPath.Command.Basic
import VectorPath.Value.Arguments

/-!
# Building commands

A command is built from values for its fields, given by position or by name. A pair given for a
point field becomes a point; every other field keeps the value it is given. Nothing else is
checked here.
-/

namespace VectorPath

def Point.construct (positional : List Value) (named : List (String × Value)) : Outcome Point := do
  match ← Arguments.bind (initializer "Point") ["x", "y"] positional named with
  | [x, y] => return ⟨x, y⟩
  | _ => mishap (.missingArguments (initializer "Point") ["x", "y"])

namespace Command

/-- The fields of a form from their values, in order. -/
def parametersOf (form : Form) (values : List Value) : Outcome (List Parameter) :=
  (form.fields.zip values).mapM fun (field, v) => Parameter.ofValue field.2 v

def construct (form : Form) (positional : List Value) (named : List (String × Value)) :
    Outcome Command := do
  let values ← Arguments.bind (initializer form.name) form.fieldNames positional named
  let ps ← parametersOf form values
  match ofParameters? form ps with
  | some c => return c
  | none => mishap (.missingArguments (initializer form.name) form.fieldNames)

end Command

end VectorPath
