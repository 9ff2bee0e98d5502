import VectorPath.Error
import VectorPath.Text.LetterCase

/-!
# Log levels

Six levels in ascending order of severity. A level is looked up by its name in any letter case;
two of the levels have a second name. Two more names denote something that is not a level, and
each of them fails in its own way.
-/

namespace VectorPath

inductive Level
  | notset
  | debug
  | info
  | warning
  | error
  | critical
  deriving DecidableEq, Repr, Inhabited

namespace Level

def all : List Level := [notset, debug, info, warning, error, critical]

def severity : Level → Nat
  | notset => 0
  | debug => 10
  | info => 20
  | warning => 30
  | error => 40
  | critical => 50

def name : Level → String
  | notset => "NOTSET"
  | debug => "DEBUG"
  | info => "INFO"
  | warning => "WARNING"
  | error => "ERROR"
  | critical => "CRITICAL"

/-- The name in small letters, as records give it. -/
def word : Level → String
  | notset => "notset"
  | debug => "debug"
  | info => "info"
  | warning => "warning"
  | error => "error"
  | critical => "critical"

def aliases : List (String × Level) := [("WARN", warning), ("FATAL", critical)]

/-- The level of a name in capitals. -/
def ofName? (name : String) : Option Level :=
  (all.find? fun l => l.name == name).or (aliases.lookup name)

/-- The level that a name in any letter case denotes. -/
def find (name : String) : Except LevelMishap Level :=
  let capitals := Text.upper name
  match ofName? capitals with
  | some l => .ok l
  | none =>
      if capitals = "BASIC_FORMAT" then .error .messageFormat
      else if capitals = "_STYLES" then .error .formatStyles
      else .error (.unknown capitals)

def passes (threshold level : Level) : Bool := threshold.severity ≤ level.severity

theorem find_name (l : Level) : find l.name = .ok l := by
  cases l <;> rfl

end Level

end VectorPath
