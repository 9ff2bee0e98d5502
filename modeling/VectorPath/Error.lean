import VectorPath.Value.Display
import VectorPath.Text.Utf8

/-!
# What can go wrong

A *fault* belongs to the library: a command that cannot be decoded, a number that must not be
written, a document, font or glyph that cannot be had. Faults are counted and logged. A *mishap*
is a misuse of a value or of a service: it is passed on and neither counted nor logged. Each
cause has one constructor, and the wording is in one place for each of the two types.
-/

namespace VectorPath

/-- Errors of the library. The first three are the general ones that the others refine. -/
inductive Fault
  | general (arguments : List Value)
  | generalCommand (arguments : List Value)
  | generalInput (arguments : List Value)
  | invalidCommand (index : Value) (reason : String)
  | nonFinite (number : Value)
  | document (place reason : String)
  | font (place reason : String)
  | glyph (name : String)
  deriving Inhabited

namespace Fault

/-- The name under which a fault is logged. -/
def name : Fault → String
  | .general _ => "PathDataError"
  | .generalCommand _ => "SegmentError"
  | .generalInput _ => "InputError"
  | .invalidCommand .. => "SegmentDecodeError"
  | .nonFinite _ => "NonFiniteValueError"
  | .document .. => "DocumentLoadError"
  | .font .. => "FontLoadError"
  | .glyph _ => "GlyphNotFoundError"

/-- The text of a general fault: its only argument, or all of them displayed. -/
def argumentText : List Value → String
  | [] => ""
  | [v] => v.plain
  | vs => (Value.tuple vs).display

/-- Says where an invalid command stands, if it has an index. -/
def whereText : Value → String
  | .null => ""
  | index => " at index " ++ index.plain

def message : Fault → String
  | .general vs | .generalCommand vs | .generalInput vs => argumentText vs
  | .invalidCommand index reason => "Invalid segment" ++ whereText index ++ ": " ++ reason
  | .nonFinite x => "Cannot encode non-finite number: " ++ x.display
  | .document place reason => "Failed to load segments from '" ++ place ++ "': " ++ reason
  | .font place reason => "Failed to load font '" ++ place ++ "': " ++ reason
  | .glyph name => "Glyph '" ++ name ++ "' not found in font"

end Fault

inductive Refusal
  | notFound
  | notDirectory
  | isDirectory
  | nameTooLong
  deriving DecidableEq, Repr

namespace Refusal

def code : Refusal → Nat
  | .notFound => 2
  | .notDirectory => 20
  | .isDirectory => 21
  | .nameTooLong => 36

def reason : Refusal → String
  | .notFound => "No such file or directory"
  | .notDirectory => "Not a directory"
  | .isDirectory => "Is a directory"
  | .nameTooLong => "File name too long"

end Refusal

/-- What a log level name denotes when it is not a level. -/
inductive LevelMishap
  | unknown (name : String)
  | messageFormat
  | formatStyles
  deriving DecidableEq, Repr

/-- A place in a settings object and what is wrong there. -/
structure SettingsError where
  location : List String
  kind : String
  deriving DecidableEq, Repr

/-- Misuse of a value or of a service. -/
inductive Mishap
  | notReal (sort : String)
  | noPlaces (sort : String)
  | notAPair (sort : String)
  | tooFew (expected given : Nat)
  | tooMany (expected : Nat)
  | notACommand (shown : String)
  | notIterable (sort : String)
  | notIndexable (sort : String)
  | listKey
  | textKey
  | tupleKey
  | missingKey (shown : String)
  | outOfRange (sort : String)
  | unhashable (sort : String)
  | missingArguments (callee : String) (names : List String)
  | tooManyArguments (callee : String) (expected given : Nat)
  | argumentRange (callee : String) (least most given : Nat)
  | unexpectedArgument (callee name : String)
  | repeatedArgument (callee name : String)
  | noMethod (owner name : String)
  | noField (owner name : String)
  | unsupportedCall
  | noPoints
  | nestedComponents
  | notSpreadable (callee sort : String)
  | operands (operator left right : String)
  | concatenation (sort other : String)
  | repetition (sort : String)
  | repetitionRange
  | textTooLong
  | tooLong
  | tooLargeForFloat
  | integerTextTooLong
  | numeralTooLong (digits : Nat)
  | notIntegerText (shown : String)
  | notFloatText (shown : String)
  | fontNotLoaded
  | noOutlines
  | shortTable
  | shortNumbers (expected : Nat)
  | nestedTooDeep (container : String)
  | undecodable (fault : Text.Utf8Fault)
  | nulInPlace
  | refused (refusal : Refusal) (place : String)
  | level (mishap : LevelMishap)
  | settings (errors : List SettingsError)
  deriving Inhabited

namespace Mishap

/-- Quoted names joined as in a sentence. -/
def enumerated : List String → String
  | [] => ""
  | [a] => a
  | [a, b] => a ++ " and " ++ b
  | names => joinWith ", " names.dropLast ++ ", and " ++ names.getLast?.getD ""

def plural (n : Nat) : String := if n = 1 then "" else "s"

def wereGiven (n : Nat) : String := if n = 1 then "was given" else "were given"

def levelMessage : LevelMishap → String
  | .unknown name => "module 'logging' has no attribute '" ++ name ++ "'"
  | .messageFormat => "Unknown level: '%(levelname)s:%(name)s:%(message)s'"
  | .formatStyles =>
      "Level not an integer or a valid string: \x7b" ++
      "'%': (<class 'logging.PercentStyle'>, '%(levelname)s:%(name)s:%(message)s'), " ++
      "'\x7b': (<class 'logging.StrFormatStyle'>, " ++
      "'\x7blevelname\x7d:\x7bname\x7d:\x7bmessage\x7d'), " ++
      "'$': (<class 'logging.StringTemplateStyle'>, " ++
      "'$\x7blevelname\x7d:$\x7bname\x7d:$\x7bmessage\x7d')\x7d"

def message : Mishap → String
  | .notReal sort => "must be real number, not " ++ sort
  | .noPlaces sort => "type " ++ sort ++ " doesn't define __round__ method"
  | .notAPair sort => "cannot unpack non-iterable " ++ sort ++ " object"
  | .tooFew expected given =>
      "not enough values to unpack (expected " ++ toString expected ++ ", got " ++
      toString given ++ ")"
  | .tooMany expected => "too many values to unpack (expected " ++ toString expected ++ ")"
  | .notACommand shown => "Not a path command: " ++ shown
  | .notIterable sort => "'" ++ sort ++ "' object is not iterable"
  | .notIndexable sort => "'" ++ sort ++ "' object is not subscriptable"
  | .listKey => "list indices must be integers or slices, not str"
  | .textKey => "string indices must be integers, not 'str'"
  | .tupleKey => "tuple indices must be integers or slices, not str"
  | .missingKey shown => shown
  | .outOfRange sort => sort ++ " index out of range"
  | .unhashable sort => "unhashable type: '" ++ sort ++ "'"
  | .missingArguments callee names =>
      callee ++ "() missing " ++ toString names.length ++ " required positional argument" ++
      plural names.length ++ ": " ++ enumerated (names.map fun s => "'" ++ s ++ "'")
  | .tooManyArguments callee expected given =>
      callee ++ "() takes " ++ toString expected ++ " positional argument" ++ plural expected ++
      " but " ++ toString given ++ " " ++ wereGiven given
  | .argumentRange callee least most given =>
      callee ++ "() takes from " ++ toString least ++ " to " ++ toString most ++
      " positional arguments but " ++ toString given ++ " " ++ wereGiven given
  | .unexpectedArgument callee name =>
      callee ++ "() got an unexpected keyword argument '" ++ name ++ "'"
  | .repeatedArgument callee name =>
      callee ++ "() got multiple values for argument '" ++ name ++ "'"
  | .noMethod owner name => "'" ++ owner ++ "' object has no attribute '" ++ name ++ "'"
  | .noField owner name => "'" ++ owner ++ "' object has no attribute '" ++ name ++ "'"
  | .unsupportedCall => ""
  | .noPoints => ""
  | .nestedComponents => "maximum recursion depth exceeded"
  | .notSpreadable callee sort =>
      callee ++ "() argument after * must be an iterable, not " ++ sort
  | .operands operator left right =>
      "unsupported operand type(s) for " ++ operator ++ ": '" ++ left ++ "' and '" ++ right ++ "'"
  | .concatenation sort other =>
      "can only concatenate " ++ sort ++ " (not \"" ++ other ++ "\") to " ++ sort
  | .repetition sort => "can't multiply sequence by non-int of type '" ++ sort ++ "'"
  | .repetitionRange => "cannot fit 'int' into an index-sized integer"
  | .textTooLong => "repeated string is too long"
  | .tooLong => ""
  | .tooLargeForFloat => "int too large to convert to float"
  | .integerTextTooLong => Layout.limitText ""
  | .numeralTooLong digits => Layout.numeralLimitText digits
  | .notIntegerText shown => "invalid literal for int() with base 10: " ++ shown
  | .notFloatText shown => "could not convert string to float: " ++ shown
  | .fontNotLoaded => "Font not loaded. Call load() first."
  | .noOutlines => "Font contains no outlines"
  | .shortTable => ""
  | .shortNumbers expected => "unpack requires a buffer of " ++ toString expected ++ " bytes"
  | .nestedTooDeep container =>
      "maximum recursion depth exceeded while decoding a JSON " ++ container ++
      " from a unicode string"
  | .undecodable fault => fault.message
  | .nulInPlace => "embedded null byte"
  | .refused refusal place =>
      "[Errno " ++ toString refusal.code ++ "] " ++ refusal.reason ++ ": " ++ Text.quoted place
  | .level mishap => levelMessage mishap
  | .settings _ => ""

end Mishap

inductive Failure
  | fault (fault : Fault)
  | mishap (mishap : Mishap)
  deriving Inhabited

def Failure.message : Failure → String
  | .fault f => f.message
  | .mishap m => m.message

abbrev Outcome (α : Type) := Except Failure α

def fault {α : Type} (f : Fault) : Outcome α := .error (.fault f)

def mishap {α : Type} (m : Mishap) : Outcome α := .error (.mishap m)

/-- The display form of a value for a message. -/
def Value.shown (v : Value) : Outcome String :=
  if v.holdsLongInteger then mishap .integerTextTooLong else .ok v.display

end VectorPath
