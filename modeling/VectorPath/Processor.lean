import VectorPath.Document
import VectorPath.Encoder
import VectorPath.Font.Reader
import VectorPath.Logging.Session
import VectorPath.Statistics

/-!
# Processors

A processor writes paths from given items, from documents and from glyphs. What it writes is
counted and logged, and so is every fault; a mishap passes through without a trace. A processor
keeps nothing but its settings and its statistics, and everything else belongs to the session.
-/

namespace VectorPath

structure Processor where
  writing : WritingSettings
  statistics : Statistics

/-- What a step comes to, with the processor and the session as they are afterwards. -/
structure Step where
  outcome : Outcome String
  processor : Processor
  session : Session

namespace Processor

def start (settings : Settings) (quiet : Bool) (s : Session) : Outcome Processor × Session :=
  match s.configure settings.logging quiet with
  | (.error f, s) => (.error f, s)
  | (.ok (), s) => (.ok { writing := settings.writing, statistics := {} }, s)

/-- Counts and logs a path that has been written. -/
def succeed (p : Processor) (s : Session) (source : String) (cs : List Command) (text : String) :
    Step :=
  { outcome := .ok text
    processor := { p with statistics := p.statistics.encoded cs }
    session := s.emit (.encoded source cs.length text.length) }

/-- Counts and logs a failure if it is a fault. -/
def fail (p : Processor) (s : Session) (source : String) : Failure → Step
  | .fault f =>
      { outcome := fault f
        processor := { p with statistics := p.statistics.failed source f }
        session := s.emit (.failed source f) }
  | .mishap m => { outcome := mishap m, processor := p, session := s }

def finish (p : Processor) (s : Session) (source : String) (cs : List Command) :
    Outcome String → Step
  | .ok text => p.succeed s source cs text
  | .error f => p.fail s source f

def encodeItems (p : Processor) (s : Session) (source : String) (v : Value) : Step :=
  match v.iterate with
  | .error f => p.fail s source f
  | .ok items =>
      p.finish s source (items.filterMap Command.ofValue?) (p.writing.path items)

/-- Writes the path of a source that has been loaded, or could not be. -/
def encodeLoaded (p : Processor) (s : Session) (source : String) :
    Outcome (List Command) → Step
  | .error f => p.fail s source f
  | .ok cs =>
      p.finish (s.emit (.loaded source cs.length)) source cs (p.writing.commands cs)

/-- Writes the path of the document at a place, or on standard input. -/
def encodeDocument [Depth] (p : Processor) (s : Session) (place : Place) : Step :=
  p.encodeLoaded s place.toText (Document.read s.files s.input place)

/-- The name of a glyph of the font at a place as a source. -/
def glyphSource (place : Place) (glyph : String) : String := place.toText ++ ":" ++ glyph

def encodeGlyph [Depth] (p : Processor) (s : Session) (place : Place) (glyph : String) : Step :=
  p.encodeLoaded s (glyphSource place glyph) (OutlineReader.outlineAt s.files place glyph)

def unnamedSource : String := "<segments>"

end Processor

end VectorPath
