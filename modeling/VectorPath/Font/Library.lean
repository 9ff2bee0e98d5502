import VectorPath.Drawing.Call
import VectorPath.Files.Basic

/-!
# What a reader asks of a font library

A font that has been opened is read only as far as a request needs it, and what has been read is
kept. So a request may change an open font, and it need not be answered twice in the same way.
-/

namespace VectorPath

/-- A request to something that may change while it answers, also when it fails. -/
abbrev Query (σ α : Type) : Type := ExceptT Failure (StateM σ) α

/-- The answer to a request, and what it leaves. -/
def Query.runOn {σ α : Type} (q : Query σ α) (s : σ) : Outcome α × σ := (q.run.run s).run

/-- What is used of a font library. -/
structure FontLibrary where
  /-- A font that has been opened. -/
  Open : Type
  /-- Opens what is at a place, or says what keeps it from being a font. -/
  openAt : Place → Entry → Except String Open
  hasTable : Open → String → Bool
  /-- The names of the glyphs in order. -/
  glyphOrder : Query Open (List String)
  hasGlyph : String → Query Open Bool
  /-- The calls that draw a glyph, and the glyphs in which components are looked up. -/
  drawing : String → Query Open (Recording × GlyphSet)

namespace FontLibrary

variable (L : FontLibrary)

def format (font : L.Open) : FontFormat :=
  if L.hasTable font "CFF " || L.hasTable font "CFF2" then .openType else .trueType

/-- The fault of a font that cannot be had. -/
def unavailable {α : Type} (place : Place) (reason : String) : Outcome α :=
  fault (.font place.toText reason)

def load (files : Files) (place : Place) : Outcome L.Open :=
  if place.hasNul then unavailable place "file not found"
  else
    match files.find place with
    | .ok entry => opened entry
    | .error .isDirectory => opened .directory
    | .error .nameTooLong => mishap (.refused .nameTooLong place.toText)
    | .error _ => unavailable place "file not found"
where
  opened (entry : Entry) : Outcome L.Open :=
    match L.openAt place entry with
    | .ok font => .ok font
    | .error reason => unavailable place reason

end FontLibrary

end VectorPath
