import VectorPath.Font.Library
import VectorPath.Font.Tables

/-!
# Open fonts

A font of which all glyphs are known answers from them. A font of which there are no more than the
bytes of its tables has no outlines that could be drawn. Its glyphs are numbered, and the names that
come from their numbers are kept before it is tried to find better ones in the character map: so a
character map that cannot be read stops the first request for names only.
-/

namespace VectorPath

inductive OpenFont
  | whole (font : Font)
  /-- The tables, and the names of the glyphs once they have been asked for. -/
  | tables (tables : List FontTable) (names? : Option (List String))

namespace OpenFont

def openAt (place : Place) : Entry → Except String OpenFont
  | .font font _ => .ok (.whole font)
  | .directory => .error (Mishap.refused .isDirectory place.toText).message
  | .bytes content =>
      match FontTable.ofBytes content with
      | .ok found => .ok (.tables found none)
      | .error defect => .error defect.reason

/-- Whether there is a table with a tag; of a font with glyphs, whether it is the one for cubic
outlines. -/
def hasTable : OpenFont → String → Bool
  | .whole font, tag => font.format == .openType && tag == "CFF "
  | .tables found _, tag => FontTable.has found tag

def glyphCount (found : List FontTable) : Outcome Nat := do
  let content ← FontTable.content found "maxp"
  let length := if FontTable.numberAt 0 4 content = 0x5000 then 6 else 32
  if content.length = length then return FontTable.numberAt 4 2 content
  else mishap (.noField "DefaultTable" "numGlyphs")

/-- The name that a glyph has from its number. -/
def numberedName (i : Nat) : String :=
  "glyph" ++ String.ofList ((Nat.toDigits 10 i).leftpad 5 '0')

/-- The names of glyphs that have none, but for the first one. -/
def numberedNames (count : Nat) : Outcome (List String) :=
  match (List.range count).map numberedName with
  | [] => mishap (.outOfRange "list assignment")
  | _ :: names => .ok (".notdef" :: names)

structure MapPart where
  isUnicode : Bool
  format : Nat
  body : List UInt8

/-- Part `i` of a character map, if there is as much of it as it says. A part that says it is empty
is left out. -/
def mapPart? (content : List UInt8) (i : Nat) : Option (List MapPart) := do
  let record ← FontTable.slice? (4 + 8 * i) 8 content
  let position := FontTable.numberAt 4 4 record
  let start ← FontTable.slice? position 4 content
  let length := FontTable.numberAt 2 2 start
  if length = 0 then return []
  else
    let all ← FontTable.slice? position length content
    guard (6 ≤ length)
    let platform := FontTable.numberAt 0 2 record
    return [{
      isUnicode := platform = 0 ||
        platform = 3 && [0, 1, 10].contains (FontTable.numberAt 2 2 record)
      format := FontTable.numberAt 0 2 all
      body := all.drop 6 }]

def mapParts? (content : List UInt8) : Option (List MapPart) := do
  let start ← FontTable.slice? 0 4 content
  let parts ← (List.range (FontTable.numberAt 2 2 start)).mapM (mapPart? content)
  return parts.flatten

/-- Reads a part of a character map, as far as it is of the usual format. -/
def MapPart.check (part : MapPart) : Outcome Unit :=
  if part.isUnicode && part.format == 4 && part.body.length < 8 then mishap (.shortNumbers 8)
  else .ok ()

/-- Reads the character map, if there is one. -/
def checkCharacterMap (found : List FontTable) : Outcome Unit :=
  if FontTable.has found "cmap" then do
    let content ← FontTable.content found "cmap"
    match mapParts? content with
    | none => mishap (.noField "DefaultTable" "buildReversedMin")
    | some parts => parts.forM MapPart.check
  else .ok ()

def glyphOrder : Query OpenFont (List String) := do
  match ← get with
  | .whole font => return font.glyphs.map Glyph.name
  | .tables _ (some names) => return names
  | .tables found none =>
      let names ← numberedNames (← glyphCount found)
      set (tables found (some names))
      checkCharacterMap found
      return names

def hasGlyph (name : String) : Query OpenFont Bool := do
  match ← get with
  | .whole font => return (Font.glyph? font.glyphs name).isSome
  | .tables .. => throw (.mishap .noOutlines)

/-- What draws a glyph. A contour without points cannot be drawn. -/
def drawing (name : String) : Query OpenFont (Recording × GlyphSet) := do
  match ← get with
  | .whole font =>
      match Font.glyph? font.glyphs name with
      | none => throw (.mishap (.missingKey (Text.quoted name)))
      | some g =>
          if Font.meetsEmptyContour font.glyphs font.glyphs.length g.outline then
            throw (.mishap (.outOfRange "list"))
          else return (Font.drawing g, Font.glyphSet font.glyphs)
  | .tables .. => throw (.mishap .noOutlines)

end OpenFont

/-- The library by which fonts are read. -/
def Font.library : FontLibrary where
  Open := OpenFont
  openAt := OpenFont.openAt
  hasTable := OpenFont.hasTable
  glyphOrder := OpenFont.glyphOrder
  hasGlyph := OpenFont.hasGlyph
  drawing := OpenFont.drawing

end VectorPath
