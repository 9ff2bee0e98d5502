import VectorPath.CoreNumerals
import VectorPath.Error
import VectorPath.Files.Place
import VectorPath.Text.Integer

/-!
# Settings

How numbers are written and where log records go. Settings are read leniently from records of
values: keys that are not known are ignored, whole numbers may come as truth values, as numbers
without a fraction or as text, and every field that cannot be read is reported with its
location. What is read back from the record of valid settings is the same settings.
-/

namespace VectorPath

open scoped CoreNumerals

/-- What to do with `nan` and infinities. -/
inductive Policy
  | passThrough
  | reject
  deriving DecidableEq, Repr, Inhabited

namespace Policy

def name : Policy → String
  | passThrough => "pass_through"
  | reject => "reject"

def ofName? (s : String) : Option Policy :=
  if s = passThrough.name then some passThrough
  else if s = reject.name then some reject
  else none

end Policy

structure WritingSettings where
  /-- The number of decimal places numbers are rounded to, from 0 to 15; none for no rounding. -/
  precision : Option (Fin 16) := none
  policy : Policy := .passThrough
  deriving DecidableEq, Repr, Inhabited

/-- Where log records go and which of them. -/
structure LogSettings where
  file : Option Place := none
  consoleLevel : String := "WARNING"
  fileLevel : String := "DEBUG"
  deriving DecidableEq, Repr, Inhabited

structure Settings where
  writing : WritingSettings := {}
  logging : LogSettings := {}
  deriving DecidableEq, Repr, Inhabited

namespace Settings

/-- A field that was read, or the kind of error in it. -/
abbrev Reading (α : Type) := Except String α

def placesOfInt (i : Int) : Reading (Option (Fin 16)) :=
  if i < 0 then .error "greater_than_equal"
  else if h : i.toNat < 16 then .ok (some ⟨i.toNat, h⟩)
  else .error "less_than_equal"

/-- Reads a number of places. Numbers of 64 bits and more, and texts that begin with too many digits
as they stand, are refused for their size. -/
def readPrecision : Value → Reading (Option (Fin 16))
  | .null => .ok none
  | .bool b => placesOfInt (if b then 1 else 0)
  | .number (.int i) => placesOfInt i
  | .number (.float x) =>
      if !x.isFinite then .error "finite_number"
      else
        match x.toInt? with
        | some i => if 2 ^ (63 : Nat) ≤ i.natAbs then .error "int_parsing_size" else placesOfInt i
        | none => .error "int_from_float"
  | .text s =>
      if Text.beginsTooLong s.toList then .error "int_parsing_size"
      else
        match Text.settingInteger? s with
        | some i => placesOfInt i
        | none => .error "int_parsing"
  | _ => .error "int_type"

def readPolicy : Value → Reading Policy
  | .text s =>
      match Policy.ofName? s with
      | some p => .ok p
      | none => .error "enum"
  | _ => .error "enum"

def readPlace : Value → Reading (Option Place)
  | .null => .ok none
  | .text s => .ok (some (Place.ofText s))
  | _ => .error "path_type"

def readText : Value → Reading String
  | .text s => .ok s
  | _ => .error "string_type"

/-- Reads a field, which takes its default when there is no entry for it. -/
def readField {α : Type} (entries : List (String × Value)) (key : String) (default : α)
    (read : Value → Reading α) : Reading α :=
  match Value.lookup key entries with
  | none => .ok default
  | some v => read v

/-- The error of a field at its location, if it has one. -/
def errorAt {α : Type} (location : List String) : Reading α → List SettingsError
  | .ok _ => []
  | .error kind => [⟨location, kind⟩]

/-- Settings that were read, or every error in them. -/
abbrev Checked (α : Type) := Except (List SettingsError) α

def writingOfEntries (location : List String) (entries : List (String × Value)) :
    Checked WritingSettings :=
  let precision := readField entries "precision" none readPrecision
  let policy := readField entries "non_finite" Policy.passThrough readPolicy
  match precision, policy with
  | .ok p, .ok q => .ok ⟨p, q⟩
  | p, q => .error (errorAt (location ++ ["precision"]) p ++ errorAt (location ++ ["non_finite"]) q)

def loggingOfEntries (location : List String) (entries : List (String × Value)) :
    Checked LogSettings :=
  let file := readField entries "log_file" none readPlace
  let console := readField entries "log_level" "WARNING" readText
  let level := readField entries "file_log_level" "DEBUG" readText
  match file, console, level with
  | .ok f, .ok c, .ok l => .ok ⟨f, c, l⟩
  | f, c, l =>
      .error (errorAt (location ++ ["log_file"]) f ++ errorAt (location ++ ["log_level"]) c ++
        errorAt (location ++ ["file_log_level"]) l)

/-- Reads a group of settings from a value, which must be a record. -/
def ofValue {α : Type} (location : List String)
    (read : List String → List (String × Value) → Checked α) : Value → Checked α
  | .record entries => read location entries
  | _ => .error [⟨location, "model_type"⟩]

/-- Reads a group that takes its default when there is no entry for it. -/
def readGroup {α : Type} (entries : List (String × Value)) (key : String) (default : α)
    (read : List String → List (String × Value) → Checked α) : Checked α :=
  match Value.lookup key entries with
  | none => .ok default
  | some v => ofValue [key] read v

def ofEntries (entries : List (String × Value)) : Checked Settings :=
  let writing := readGroup entries "encoder" ({} : WritingSettings) writingOfEntries
  let logging := readGroup entries "logging" ({} : LogSettings) loggingOfEntries
  match writing, logging with
  | .ok w, .ok l => .ok ⟨w, l⟩
  | .error e, .ok _ => .error e
  | .ok _, .error e => .error e
  | .error e, .error f => .error (e ++ f)

def outcome {α : Type} : Checked α → Outcome α
  | .ok a => .ok a
  | .error errors => mishap (.settings errors)

end Settings

def WritingSettings.ofValue (v : Value) : Outcome WritingSettings :=
  Settings.outcome (Settings.ofValue [] Settings.writingOfEntries v)

def LogSettings.ofValue (v : Value) : Outcome LogSettings :=
  Settings.outcome (Settings.ofValue [] Settings.loggingOfEntries v)

def Settings.read (v : Value) : Outcome Settings :=
  Settings.outcome (Settings.ofValue [] (fun _ entries => Settings.ofEntries entries) v)

/-- The record of how numbers are written. -/
def WritingSettings.toValue (s : WritingSettings) : Value :=
  .record [
    ("precision", match s.precision with
      | some p => Value.int p.val
      | none => .null),
    ("non_finite", .text s.policy.name)]

/-- The record of where log records go. -/
def LogSettings.toValue (s : LogSettings) : Value :=
  .record [
    ("log_file", match s.file with
      | some place => .text place.toText
      | none => .null),
    ("log_level", .text s.consoleLevel),
    ("file_log_level", .text s.fileLevel)]

def Settings.toValue (s : Settings) : Value :=
  .record [("encoder", s.writing.toValue), ("logging", s.logging.toValue)]

end VectorPath
