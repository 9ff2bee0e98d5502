import VectorPath.CommandLine.Options
import VectorPath.Settings

/-!
# Invocations

What a command line asks for: help, the version, or the path of a document or a glyph under the
given settings. Help and version come before everything that could be wrong with the rest, but
not before arguments that cannot be split. How an option that is an integer may be written is left
to the caller.
-/

namespace VectorPath.CommandLine

/-- Where the commands come from. -/
inductive Source
  | document (place : Place)
  | glyph (place : Place) (name : String)
  deriving DecidableEq, Repr

def Source.text : Source → String
  | .document place => place.toText
  | .glyph place name => place.toText ++ ":" ++ name

/-- A path that is asked for. -/
structure Job where
  source : Source
  settings : Settings
  stats : Bool
  quiet : Bool
  deriving DecidableEq, Repr

inductive Invocation
  | help
  | version
  | job (job : Job)
  deriving DecidableEq, Repr

inductive Subcommand
  | encode
  | glyph
  deriving DecidableEq, Repr

namespace Subcommand

def name : Subcommand → String
  | encode => "encode"
  | glyph => "glyph"

def ofName? (s : String) : Option Subcommand := [encode, glyph].find? fun c => c.name == s

end Subcommand

def helpForm : OptionForm := ⟨.help, "--help", none, false⟩

def globalForms : List OptionForm := [⟨.version, "--version", some 'V', false⟩, helpForm]

def jobForms : List OptionForm := [
  ⟨.precision, "--precision", some 'p', true⟩,
  ⟨.rejectNonFinite, "--reject-non-finite", none, false⟩,
  ⟨.logFile, "--log-file", none, true⟩,
  ⟨.logLevel, "--log-level", none, true⟩,
  ⟨.stats, "--stats", some 's', false⟩,
  ⟨.quiet, "--quiet", some 'q', false⟩,
  helpForm]

section Precision

variable (integerOf : String → Option Int)

/-- The number of places that an option value gives. -/
def precisionOf (value : String) : Except UsageError (Option (Fin 16)) :=
  match (integerOf value).map Settings.placesOfInt with
  | some (.ok places) => .ok places
  | _ => .error (.invalidValue "--precision" value)

def precisionIn (a : SplitArguments) : Except UsageError (Option (Fin 16)) :=
  match a.last? .precision with
  | none => .ok none
  | some value => precisionOf integerOf value

end Precision

/-- The place that an argument names. No place has the null character in its name. -/
def placeOf (name value : String) : Except UsageError Place :=
  let place := Place.ofText value
  if place.hasNul then .error (.invalidValue name value) else .ok place

def logFileIn (a : SplitArguments) : Except UsageError (Option Place) :=
  match a.last? .logFile with
  | none => .ok none
  | some value => (placeOf "--log-file" value).map some

def settingsOf (a : SplitArguments) (precision : Option (Fin 16)) (logFile : Option Place) :
    Settings :=
  { writing := {
      precision
      policy := if a.has .rejectNonFinite then .reject else .passThrough }
    logging := {
      file := logFile
      consoleLevel := (a.last? .logLevel).getD ({} : LogSettings).consoleLevel } }

/-- The source that the operands of a subcommand name. -/
def sourceOf : Subcommand → List String → Except UsageError Source
  | .encode, [] => .ok (.document Place.standardInput)
  | .encode, [file] => do return .document (← placeOf "FILE" file)
  | .encode, _ :: extra :: _ => .error (.extraArgument extra)
  | .glyph, [] => .error (.missingArgument "FONT_FILE")
  | .glyph, [_] => .error (.missingArgument "GLYPH_NAME")
  | .glyph, [font, name] => do return .glyph (← placeOf "FONT_FILE" font) name
  | .glyph, _ :: _ :: extra :: _ => .error (.extraArgument extra)

def readJob (integerOf : String → Option Int) (c : Subcommand) (arguments : List String) :
    Except UsageError Invocation := do
  let a ← split jobForms true arguments
  if a.has .help then return .help
  else
    let precision ← precisionIn integerOf a
    let logFile ← logFileIn a
    let source ← sourceOf c a.operands
    return .job {
      source
      settings := settingsOf a precision logFile
      stats := a.has .stats
      quiet := a.has .quiet }

/-- What the options before a subcommand ask for, the first one given first. -/
def globalRequest? (a : SplitArguments) : Option Invocation :=
  a.options.findSome? fun
    | (.help, _) => some .help
    | (.version, _) => some .version
    | _ => none

/-- What is asked for by options that stand where a subcommand should be. -/
def misplacedRequest (name : String) (arguments : List String) : Except UsageError Invocation := do
  match globalRequest? (← split globalForms false arguments) with
  | some request => return request
  | none => .error (.unknownCommand name)

/-- Reads an integer as an option library does that leaves numbers to the lenient rules of settings,
but no text that begins with too many digits. -/
def lenientInteger (s : String) : Option Int :=
  if Text.beginsTooLong s.toList then none else Text.settingInteger? s

def read (integerOf : String → Option Int) (arguments : List String) :
    Except UsageError Invocation := do
  let a ← split globalForms false arguments
  match globalRequest? a with
  | some request => return request
  | none =>
      match a.operands with
      | [] => .error .missingCommand
      | name :: rest =>
          match Subcommand.ofName? name with
          | some c => readJob integerOf c rest
          | none => misplacedRequest name (name :: rest)

end VectorPath.CommandLine
