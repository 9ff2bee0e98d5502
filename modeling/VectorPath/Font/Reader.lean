import VectorPath.Drawing.Pen
import VectorPath.Font.Opened

/-!
# Reading glyph outlines

A reader has a place and, once it has loaded the font there, that font. Everything but loading and
closing needs a loaded font. A request that fails leaves the reader loaded or not, as it was, except
that a reader used for one outline within a scope is closed at the end of the scope, whatever
happened inside, unless the font could not be loaded in the first place.
-/

namespace VectorPath

def FontLibrary.outline [Depth] (L : FontLibrary) (name : String) :
    Query L.Open (List Command) := do
  if ← L.hasGlyph name then
    let (calls, glyphs) ← L.drawing name
    calls.commands (some glyphs)
  else throw (.fault (.glyph name))

structure OutlineReader (L : FontLibrary) where
  place : Place
  font? : Option L.Open

namespace OutlineReader

variable {L : FontLibrary}

/-- A reader that has loaded nothing. -/
def start (place : Place) : OutlineReader L := ⟨place, none⟩

def load (files : Files) (r : OutlineReader L) : Outcome (OutlineReader L) := do
  return { r with font? := some (← L.load files r.place) }

def close (r : OutlineReader L) : OutlineReader L := { r with font? := none }

def ask {α : Type} (r : OutlineReader L) (query : Query L.Open α) : Outcome α × OutlineReader L :=
  match r.font? with
  | some font =>
      let (answer, font) := query.runOn font
      (answer, { r with font? := some font })
  | none => (mishap .fontNotLoaded, r)

def format (r : OutlineReader L) : Outcome FontFormat × OutlineReader L :=
  r.ask do return L.format (← get)

def glyphNames (r : OutlineReader L) : Outcome (List String) × OutlineReader L :=
  r.ask L.glyphOrder

def outline [Depth] (r : OutlineReader L) (name : String) :
    Outcome (List Command) × OutlineReader L := r.ask (L.outline name)

inductive Request
  | load
  | close
  | format
  | glyphNames
  | outline (glyph : String)
  | scoped (glyph : String)
  deriving DecidableEq, Repr

inductive Answer
  | done
  | format (format : FontFormat)
  | names (names : List String)
  | commands (commands : List Command)

/-- Answers a request, with the reader as it is afterwards. -/
def answer [Depth] (files : Files) (r : OutlineReader L) :
    Request → Outcome Answer × OutlineReader L
  | .load =>
      match r.load files with
      | .ok loaded => (.ok .done, loaded)
      | .error f => (.error f, r)
  | .close => (.ok .done, r.close)
  | .format => r.format.map (Except.map .format) id
  | .glyphNames => r.glyphNames.map (Except.map .names) id
  | .outline glyph => (r.outline glyph).map (Except.map .commands) id
  | .scoped glyph =>
      match r.load files with
      | .ok loaded => (loaded.outline glyph).map (Except.map .commands) close
      | .error f => (.error f, r)

def outlineAt [Depth] (files : Files) (place : Place) (glyph : String) :
    Outcome (List Command) := do
  let reader : OutlineReader Font.library ← (start place).load files
  (reader.outline glyph).1

end OutlineReader

end VectorPath
