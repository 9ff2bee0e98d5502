import VectorPath.Error
import VectorPath.Files.Place
import VectorPath.Font.Basic

/-!
# Files

The files that a run can see, as data: entries under their locations, a location being the names
that lead to it from the root, without any dots. So a file has one location, whichever of its names
it is looked up by. A directory exists when it is listed, when something lies below it, or when it
leads to the working directory.
-/

namespace VectorPath

/-- What a location holds. A font that has been written to keeps its tables. -/
inductive Entry
  | bytes (content : List UInt8)
  | font (font : Font) (appended : List UInt8)
  | directory

abbrev Location := List String

/-- Entries under their locations, as they are seen from a working directory. -/
structure Files where
  directory : Location
  entries : List (Location × Entry)

namespace Files

def entry? (files : Files) (l : Location) : Option Entry :=
  (files.entries.find? fun e => e.1 == l).map Prod.snd

def isBelow (above l : Location) : Bool := above.isPrefixOf l && above.length < l.length

def isDirectory (files : Files) (l : Location) : Bool :=
  l.isPrefixOf files.directory ||
    files.entries.any fun e => isBelow l e.1 || (e.1 == l && match e.2 with
      | .directory => true
      | _ => false)

def exists? (files : Files) (l : Location) : Bool :=
  files.isDirectory l || (files.entry? l).isSome

/-- The directory that holds a location; the root is in itself. -/
def parent (l : Location) : Location := l.dropLast

/-- Where a name leads from a location. -/
def next (l : Location) (part : String) : Location := if part == ".." then parent l else l ++ [part]

/-- Longest name of a file, in bytes. -/
def nameLimit : Nat := 255

/-- Length from which the text of a place is too long. -/
def placeLimit : Nat := 4096

/-- Follows names from a location; every location on the way must be a directory. -/
def walk (files : Files) : Location → List String → Except Refusal Location
  | l, [] => .ok l
  | l, part :: rest =>
      if !files.exists? l then .error .notFound
      else if !files.isDirectory l then .error .notDirectory
      else if nameLimit < part.utf8ByteSize then .error .nameTooLong
      else walk files (next l part) rest

/-- The location from which the parts of a place are followed. -/
def base (files : Files) (p : Place) : Location := if p.root == "" then files.directory else []

/-- The location that a place leads to; there need not be anything there. -/
def locate (files : Files) (p : Place) : Except Refusal Location :=
  if placeLimit ≤ p.toText.utf8ByteSize then .error .nameTooLong
  else walk files (files.base p) p.parts

/-- The bytes of a font file begin with the header of its table directory. -/
def fontBytes (font : Font) (appended : List UInt8) : List UInt8 := font.header ++ appended

def find (files : Files) (p : Place) : Except Refusal Entry := do
  let l ← files.locate p
  if files.isDirectory l then .error .isDirectory
  else
    match files.entry? l with
    | some e => .ok e
    | none => .error .notFound

def readBytes (files : Files) (p : Place) : Except Refusal (List UInt8) := do
  match ← files.find p with
  | .bytes content => .ok content
  | .font font appended => .ok (fontBytes font appended)
  | .directory => .error .isDirectory

def set (files : Files) (l : Location) (e : Entry) : Files :=
  { files with entries :=
      if (files.entry? l).isSome then
        files.entries.map fun old => if old.1 == l then (l, e) else old
      else files.entries ++ [(l, e)] }

/-- Removes two dots together with the name before them, without looking at any directory. -/
def plainParts (parts : List String) : List String := parts.foldl next []

/-- The full place of a place, which begins at the root and has no dots. -/
def absolute (files : Files) (p : Place) : Place :=
  if p.root == "" then ⟨"/", plainParts (files.directory ++ p.parts)⟩
  else ⟨p.root, plainParts p.parts⟩

def fullText (files : Files) (p : Place) : String := (files.absolute p).toText

/-- The location that the full place of a place leads to. -/
def locateFull (files : Files) (p : Place) : Except Refusal Location :=
  if placeLimit ≤ (files.fullText p).utf8ByteSize then .error .nameTooLong
  else walk files [] (files.absolute p).parts

/-- Opens a file for appending under its full place. A missing file is created in an existing
directory. -/
def openAppend (files : Files) (p : Place) : Except Refusal (Location × Files) := do
  let l ← files.locateFull p
  if files.isDirectory l then .error .isDirectory
  else
    match files.entry? l with
    | some _ => .ok (l, files)
    | none => .ok (l, files.set l (.bytes []))

def append (files : Files) (l : Location) (more : List UInt8) : Files :=
  match files.entry? l with
  | some (.bytes content) => files.set l (.bytes (content ++ more))
  | some (.font font appended) => files.set l (.font font (appended ++ more))
  | _ => files

end Files

end VectorPath
