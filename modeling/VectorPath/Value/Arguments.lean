import VectorPath.Error

/-!
# Binding arguments

Arguments by position come first, then arguments by name, and every parameter must be bound
exactly once. The receiver of a call is bound before its arguments. The mishap of a call names
what is wrong with it: a name that is unknown or bound before, too many positions, or parameters
left without a value.
-/

namespace VectorPath

/-- The message names the operation that builds a value of a named type. -/
def initializer (typeName : String) : String := typeName ++ ".__init__"

namespace Arguments

/-- The name of the receiver among the parameters. -/
def receiver : String := "self"

/-- Binds the arguments given by name, in order. -/
def bindNamed (callee : String) (parameters : List String) :
    List (String × Value) → List (String × Value) → Outcome (List (String × Value))
  | [], bound => .ok bound
  | (name, v) :: rest, bound =>
      if name = receiver then mishap (.repeatedArgument callee name)
      else if !parameters.contains name then mishap (.unexpectedArgument callee name)
      else if bound.any fun entry => entry.1 == name then mishap (.repeatedArgument callee name)
      else bindNamed callee parameters rest (bound ++ [(name, v)])

/-- The values of the parameters in order. The receiver of a call counts among its positions. -/
def bind (callee : String) (parameters : List String) (positional : List Value)
    (named : List (String × Value)) : Outcome (List Value) := do
  let bound ← bindNamed callee parameters named (parameters.zip positional)
  if parameters.length < positional.length then
    mishap (.tooManyArguments callee (parameters.length + 1) (positional.length + 1))
  else
    match parameters.filter fun name => (Value.lookup name bound).isNone with
    | [] => return parameters.filterMap fun name => Value.lookup name bound
    | missing => mishap (.missingArguments callee missing)

end Arguments

end VectorPath
