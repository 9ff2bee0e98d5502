import VectorPath.Command.Basic
import VectorPath.Error

/-!
# Motions of a pen

A pen adds commands to a drawing, and it has a current point, which is null between contours. What
it does from one point to the next is a motion. Whatever a motion has added stays when something
fails later, and so does the point that it has come to.
-/

namespace VectorPath

/-- What has been added to a drawing, and the failure that stopped it, if one did. -/
structure Drawn where
  commands : List Command
  failure : Option Failure

namespace Drawn

def nothing : Drawn := ⟨[], none⟩

def failed (f : Failure) : Drawn := ⟨[], some f⟩

/-- Goes on unless something failed. -/
def andThen (d : Drawn) (next : Unit → Drawn) : Drawn :=
  match d.failure with
  | some _ => d
  | none =>
      let more := next ()
      ⟨d.commands ++ more.commands, more.failure⟩

/-- Draws with a result, or fails with its failure. -/
def bind {α : Type} (outcome : Outcome α) (draw : α → Drawn) : Drawn :=
  match outcome with
  | .ok a => draw a
  | .error f => failed f

def emit (outcome : Outcome Command) : Drawn := bind outcome fun c => ⟨[c], none⟩

def outcome (d : Drawn) : Outcome (List Command) :=
  match d.failure with
  | some f => .error f
  | none => .ok d.commands

end Drawn

/-- What is added from the current point, and the current point afterwards. -/
def Motion : Type := Value → Drawn × Value

namespace Motion

def rest : Motion := fun current => (.nothing, current)

def failed (f : Failure) : Motion := fun current => (.failed f, current)

def goTo (p : Value) : Motion := fun _ => (.nothing, p)

/-- Draws from the current point and, unless that fails, is at another one then. -/
def reaching (p : Value) (draw : Value → Drawn) : Motion := fun current =>
  let drawn := draw current
  (drawn, if drawn.failure.isSome then current else p)

/-- Goes on from where the pen is, unless something failed. -/
def andThen (first second : Motion) : Motion := fun current =>
  let (drawn, next) := first current
  match drawn.failure with
  | some _ => (drawn, next)
  | none =>
      let (more, last) := second next
      (⟨drawn.commands ++ more.commands, more.failure⟩, last)

def sequence {α : Type} (move : α → Motion) : List α → Motion
  | [] => rest
  | a :: as => (move a).andThen (sequence move as)

/-- Moves by a result, or fails with its failure. -/
def bind {α : Type} (outcome : Outcome α) (move : α → Motion) : Motion :=
  match outcome with
  | .ok a => move a
  | .error f => failed f

/-- What a motion adds to a drawing that begins with it. -/
def drawn (m : Motion) : Drawn := (m .null).1

end Motion

end VectorPath
