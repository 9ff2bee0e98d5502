/-!
# Options on a command line

Arguments are split into options and operands. An option has a long name, and perhaps a letter;
letters can be joined behind one dash. The value of an option is what follows an equals sign or
the letter, or else the next argument, whatever that looks like. After two dashes every argument
is an operand. A command with subcommands ends its own options at the first operand.
-/

namespace VectorPath.CommandLine

inductive UsageError
  | unknownOption (option : String)
  | missingValue (option : String)
  | unexpectedValue (option : String)
  | invalidValue (option value : String)
  | missingCommand
  | unknownCommand (name : String)
  | missingArgument (name : String)
  | extraArgument (argument : String)
  deriving DecidableEq, Repr

def UsageError.message : UsageError → String
  | .unknownOption option => "No such option: " ++ option
  | .missingValue option => "Option " ++ option ++ " requires an argument"
  | .unexpectedValue option => "Option " ++ option ++ " does not take a value"
  | .invalidValue option value => "Invalid value for " ++ option ++ ": " ++ value
  | .missingCommand => "Missing command"
  | .unknownCommand name => "No such command: " ++ name
  | .missingArgument name => "Missing argument " ++ name
  | .extraArgument argument => "Got unexpected extra argument " ++ argument

inductive OptionKey
  | help
  | version
  | precision
  | rejectNonFinite
  | logFile
  | logLevel
  | stats
  | quiet
  deriving DecidableEq, Repr

structure OptionForm where
  key : OptionKey
  long : String
  letter? : Option Char
  takesValue : Bool

/-- Options in the order in which they were given, with their values, and the operands. -/
structure SplitArguments where
  options : List (OptionKey × String)
  operands : List String
  deriving Repr

namespace SplitArguments

def empty : SplitArguments := ⟨[], []⟩

def withOptions (given : List (OptionKey × String)) (a : SplitArguments) : SplitArguments :=
  { a with options := given ++ a.options }

def withOperand (operand : String) (a : SplitArguments) : SplitArguments :=
  { a with operands := operand :: a.operands }

def has (a : SplitArguments) (key : OptionKey) : Bool := a.options.any fun option => option.1 == key

def last? (a : SplitArguments) (key : OptionKey) : Option String :=
  (a.options.reverse.find? fun option => option.1 == key).map Prod.snd

end SplitArguments

/-- What one argument gives: options, and perhaps one that waits for its value. -/
structure Given where
  options : List (OptionKey × String)
  pending : Option OptionForm

def longForm? (forms : List OptionForm) (name : String) : Option OptionForm :=
  forms.find? fun form => form.long == name

def letterForm? (forms : List OptionForm) (letter : Char) : Option OptionForm :=
  forms.find? fun form => form.letter? == some letter

def readLetters (forms : List OptionForm) : List Char → Except UsageError Given
  | [] => .ok ⟨[], none⟩
  | letter :: rest =>
      match letterForm? forms letter with
      | none => .error (.unknownOption (String.ofList ['-', letter]))
      | some form =>
          if form.takesValue then
            if rest.isEmpty then .ok ⟨[], some form⟩
            else .ok ⟨[(form.key, String.ofList rest)], none⟩
          else do
            let more ← readLetters forms rest
            return { more with options := (form.key, "") :: more.options }

/-- Reads a long option, with the value behind an equals sign if there is one. -/
def readLong (form : OptionForm) (value? : Option String) : Except UsageError Given :=
  match form.takesValue, value? with
  | true, some value => .ok ⟨[(form.key, value)], none⟩
  | true, none => .ok ⟨[], some form⟩
  | false, some _ => .error (.unexpectedValue form.long)
  | false, none => .ok ⟨[(form.key, "")], none⟩

/-- The part of an argument before its first equals sign. -/
def optionName (argument : List Char) : String := String.ofList (argument.takeWhile (· != '='))

/-- The part of an argument after its first equals sign. -/
def optionValue? (argument : List Char) : Option String :=
  match argument.dropWhile (· != '=') with
  | [] => none
  | _ :: value => some (String.ofList value)

/-- Reads an argument that begins with a dash. A long name is tried first. -/
def readOption (forms : List OptionForm) (argument : List Char) : Except UsageError Given :=
  match longForm? forms (optionName argument) with
  | some form => readLong form (optionValue? argument)
  | none =>
      match argument with
      | '-' :: '-' :: _ => .error (.unknownOption (optionName argument))
      | _ :: letters => readLetters forms letters
      | [] => .error (.unknownOption "")

/-- A dash alone is an operand. -/
def isOption (argument : List Char) : Bool :=
  match argument with
  | '-' :: _ :: _ => true
  | _ => false

/-- Splits arguments; an option may wait for its value. When operands and options do not mix, the
first operand and everything after it are operands. -/
def splitFrom (forms : List OptionForm) (mixed : Bool) :
    Option OptionForm → List String → Except UsageError SplitArguments
  | none, [] => .ok .empty
  | some form, [] => .error (.missingValue form.long)
  | some form, argument :: rest => do
      return (← splitFrom forms mixed none rest).withOptions [(form.key, argument)]
  | none, argument :: rest =>
      if argument = "--" then .ok ⟨[], rest⟩
      else if isOption argument.toList then do
        let given ← readOption forms argument.toList
        return (← splitFrom forms mixed given.pending rest).withOptions given.options
      else if mixed then do
        return (← splitFrom forms mixed none rest).withOperand argument
      else .ok ⟨[], argument :: rest⟩

def split (forms : List OptionForm) (mixed : Bool) (arguments : List String) :
    Except UsageError SplitArguments :=
  splitFrom forms mixed none arguments

end VectorPath.CommandLine
