import VectorPath.Error

/-!
# Tables of font files

A font file begins with a header, which holds its version and how many entries of a table
directory follow it. A file in which the header and the entries can be read is a font even if it
has nothing else; what the tables hold is read later. A file with compressed tables has a longer
header and longer entries. A collection of fonts is not a font, because nothing says which of its
fonts is meant.
-/

namespace VectorPath

structure FontLayout where
  /-- What messages call such a file. -/
  noun : String
  headerSize : Nat
  entrySize : Nat
  /-- Where the header holds the version and the number of entries. -/
  versionAt : Nat
  countAt : Nat
  /-- Where an entry holds the position and the length of its table. -/
  offsetAt : Nat
  lengthAt : Nat

def FontLayout.plain : FontLayout := ⟨"TrueType or OpenType", 12, 16, 0, 4, 8, 12⟩

def FontLayout.compressed : FontLayout := ⟨"WOFF", 44, 20, 4, 12, 4, 8⟩

inductive FontDefect
  | notEnoughData (noun : String)
  | unknownVersion
  | shortEntry (expected given : Nat)
  | shortBlock
  | noDecoder
  | shortCollection
  | collectionVersion (version : Nat)
  | shortOffsets (expected : Nat)
  | collection (count : Nat)
  deriving DecidableEq, Repr

def FontDefect.reason : FontDefect → String
  | .notEnoughData noun => "Not a " ++ noun ++ " font (not enough data)"
  | .unknownVersion => "Not a TrueType or OpenType font (bad sfntVersion)"
  | .shortEntry expected given =>
      "unexpected end of table directory: expected " ++ toString expected ++ " bytes but got " ++
      toString given
  | .shortBlock => ""
  | .noDecoder => "No module named brotli"
  | .shortCollection => "Not a Font Collection (not enough data)"
  | .collectionVersion version =>
      "unrecognized TTC version 0x" ++ String.ofList (Text.hexDigits 8 version)
  | .shortOffsets expected => "unpack requires a buffer of " ++ toString expected ++ " bytes"
  | .collection count =>
      "specify a font number between 0 and " ++
      String.ofList (Layout.integer ((count : Int) - 1)) ++ " (inclusive)"

structure FontTable where
  tag : String
  /-- The bytes of the table; none when the file ends before they do. -/
  content? : Option (List UInt8)

namespace FontTable

/-- The versions of a table directory: a number, and two words. -/
def knownVersions : List (List UInt8) :=
  [[0, 1, 0, 0], [0x4f, 0x54, 0x54, 0x4f], [0x74, 0x72, 0x75, 0x65]]

/-- The number that `size` bytes from a position on hold, the first of them the highest. -/
def numberAt (position size : Nat) (bytes : List UInt8) : Nat :=
  ((bytes.drop position).take size).foldl (fun n b => 256 * n + b.toNat) 0

/-- So many bytes from a position on, if there are so many. -/
def slice? (position size : Nat) (bytes : List UInt8) : Option (List UInt8) :=
  let found := (bytes.drop position).take size
  if found.length = size then some found else none

/-- The table that an entry of the directory describes. -/
def ofEntry (layout : FontLayout) (bytes entry : List UInt8) : FontTable :=
  { tag := String.ofList ((entry.take 4).map fun b => Char.ofNat b.toNat)
    content? := slice? (numberAt layout.offsetAt 4 entry) (numberAt layout.lengthAt 4 entry) bytes }

/-- The entries of a directory, so many of a size. -/
def entries (size : Nat) : Nat → List UInt8 → Except FontDefect (List (List UInt8))
  | 0, _ => .ok []
  | count + 1, bytes =>
      if bytes.length < size then .error (.shortEntry size bytes.length)
      else return bytes.take size :: (← entries size count (bytes.drop size))

def directory (layout : FontLayout) (bytes : List UInt8) : Except FontDefect (List FontTable) :=
  if bytes.length < layout.headerSize then .error (.notEnoughData layout.noun)
  else if !knownVersions.contains ((bytes.drop layout.versionAt).take 4) then
    .error .unknownVersion
  else do
    let found ← entries layout.entrySize (numberAt layout.countAt 2 bytes)
      (bytes.drop layout.headerSize)
    return found.map (ofEntry layout bytes)

/-- Whether a header announces a block, by where it begins and its length, that the bytes end
before. -/
def endsBeforeBlock (beginAt lengthAt : Nat) (bytes : List UInt8) : Bool :=
  let length := numberAt lengthAt 4 bytes
  0 < length && bytes.length < numberAt beginAt 4 bytes + length

/-- The tables in a file with compressed ones, which may hold two blocks of other data. -/
def ofCompressed (bytes : List UInt8) : Except FontDefect (List FontTable) := do
  let tables ← directory .compressed bytes
  if endsBeforeBlock 24 28 bytes || endsBeforeBlock 36 40 bytes then .error .shortBlock
  else return tables

def collectionDefect (bytes : List UInt8) : FontDefect :=
  let version := numberAt 4 4 bytes
  let count := numberAt 8 4 bytes
  if bytes.length < 12 then .shortCollection
  else if version != 0x10000 && version != 0x20000 then .collectionVersion version
  else if bytes.length < 12 + 4 * count then .shortOffsets (4 * count)
  else .collection count

/-- The first bytes of a collection of fonts, of a file with compressed tables, and of one whose
tables are compressed together. -/
def collectionMark : List UInt8 := [0x74, 0x74, 0x63, 0x66]

def compressedMark : List UInt8 := [0x77, 0x4f, 0x46, 0x46]

def jointMark : List UInt8 := [0x77, 0x4f, 0x46, 0x32]

/-- The tables of the font that bytes hold. The first of them tell the layout. -/
def ofBytes (bytes : List UInt8) : Except FontDefect (List FontTable) :=
  let mark := bytes.take 4
  if mark == collectionMark then .error (collectionDefect bytes)
  else if mark == compressedMark then ofCompressed bytes
  else if mark == jointMark then .error .noDecoder
  else directory .plain bytes

/-- The bytes of the table with a tag; of several the last one counts. -/
def content (tables : List FontTable) (tag : String) : Outcome (List UInt8) :=
  match tables.reverse.find? fun t => t.tag == tag with
  | none => mishap (.missingKey (Text.quoted tag))
  | some t =>
      match t.content? with
      | none => mishap .shortTable
      | some bytes => .ok bytes

def has (tables : List FontTable) (tag : String) : Bool := tables.any fun t => t.tag == tag

end FontTable

end VectorPath
