import VectorPath.Processor

/-!
# Calls of a processor

The three ways to ask a processor for a path text are one type of requests. What a processor
answers is one equation for all of them: a request has an outcome that depends on nothing but the
writing settings and the files, and this outcome alone decides what is counted and which records
are logged.
-/

namespace VectorPath

/-- What a processor is asked to write. A document comes with what standard input holds. -/
inductive Request
  | items (values : List Value) (source : String)
  | document (place : Place) (input : String)
  | glyph (place : Place) (name : String)

namespace Request

def source : Request → String
  | .items _ source => source
  | .document place _ => place.toText
  | .glyph place name => Processor.glyphSource place name

/-- The session with the standard input of the request. -/
def entering (s : Session) : Request → Session
  | .document _ input => { s with input }
  | _ => s

/-- What loading gives; given items are not loaded. -/
def load? [Depth] (files : Files) : Request → Option (Outcome (List Command))
  | .items .. => none
  | .document place input => some (Document.read files input place)
  | .glyph place name => some (OutlineReader.outlineAt files place name)

def writtenLoaded (writing : WritingSettings) (loaded : Outcome (List Command)) :
    Outcome (List Command × String) := do
  let cs ← loaded
  return (cs, ← writing.commands cs)

/-- The commands of a request with their text. -/
def written [Depth] (writing : WritingSettings) (files : Files) :
    Request → Outcome (List Command × String)
  | .items vs _ => do
      let text ← writing.path vs
      return (vs.filterMap Command.ofValue?, text)
  | .document place input => writtenLoaded writing (Document.read files input place)
  | .glyph place name => writtenLoaded writing (OutlineReader.outlineAt files place name)

/-- The record of what has been loaded. -/
def loadRecords (source : String) : Outcome (List Command) → List Record
  | .ok cs => [.loaded source cs.length]
  | .error _ => []

/-- The record of a path that has been written or of a fault. -/
def endRecords (source : String) : Outcome (List Command × String) → List Record
  | .ok (cs, text) => [.encoded source cs.length text.length]
  | .error (.fault f) => [.failed source f]
  | .error (.mishap _) => []

/-- The records of a request until its path is written. -/
def loadingRecords [Depth] (files : Files) (r : Request) : List Record :=
  match r.load? files with
  | some loaded => loadRecords r.source loaded
  | none => []

def records [Depth] (writing : WritingSettings) (files : Files) (r : Request) : List Record :=
  r.loadingRecords files ++ endRecords r.source (r.written writing files)

end Request

/-- What a request leaves in the statistics. -/
def Statistics.noted (statistics : Statistics) (source : String) :
    Outcome (List Command × String) → Statistics
  | .ok (cs, _) => statistics.encoded cs
  | .error (.fault f) => statistics.failed source f
  | .error (.mishap _) => statistics

namespace Processor

def answer [Depth] (p : Processor) (s : Session) : Request → Step
  | .items items source => p.encodeItems s source (.list items)
  | .document place input => p.encodeDocument { s with input } place
  | .glyph place name => p.encodeGlyph s place name

/-- The step that ends with an outcome, when some records have been logged before. -/
def ending (p : Processor) (s : Session) (source : String)
    (o : Outcome (List Command × String)) : Step where
  outcome := o.map Prod.snd
  processor := { p with statistics := p.statistics.noted source o }
  session := (Request.endRecords source o).foldl Session.emit s

theorem finish_eq (p : Processor) (s : Session) (source : String) (cs : List Command)
    (o : Outcome String) : p.finish s source cs o = p.ending s source (o.map (cs, ·)) := by
  rcases o with (f | m) | text <;> rfl

theorem fail_eq (p : Processor) (s : Session) (source : String) (f : Failure) :
    p.fail s source f = p.ending s source (.error f) := by
  rcases f with f | m <;> rfl

theorem encodeLoaded_eq (p : Processor) (s : Session) (source : String)
    (loaded : Outcome (List Command)) :
    p.encodeLoaded s source loaded =
      p.ending ((Request.loadRecords source loaded).foldl Session.emit s) source
        (Request.writtenLoaded p.writing loaded) := by
  rcases loaded with f | cs
  · exact fail_eq p s source f
  · have hwritten : Request.writtenLoaded p.writing (.ok cs) =
        (p.writing.commands cs).map (cs, ·) := by
      change (p.writing.commands cs >>= _) = _
      rcases p.writing.commands cs with f | text <;> rfl
    rw [hwritten]
    exact finish_eq p (s.emit (.loaded source cs.length)) source cs (p.writing.commands cs)

variable [Depth] (p : Processor) (s : Session) (r : Request)

theorem answer_eq :
    p.answer s r =
      p.ending ((r.loadingRecords s.files).foldl Session.emit (r.entering s)) r.source
        (r.written p.writing s.files) := by
  cases r with
  | items vs source =>
      have hwritten : (Request.items vs source).written p.writing s.files =
          (p.writing.path vs).map (vs.filterMap Command.ofValue?, ·) := by
        change (p.writing.path vs >>= _) = _
        rcases p.writing.path vs with f | text <;> rfl
      rw [hwritten]
      exact finish_eq p s source (vs.filterMap Command.ofValue?) (p.writing.path vs)
  | document place input => exact encodeLoaded_eq p { s with input } place.toText _
  | glyph place name => exact encodeLoaded_eq p s (glyphSource place name) _

theorem answer_outcome :
    (p.answer s r).outcome = (r.written p.writing s.files).map Prod.snd := by
  rw [answer_eq]
  rfl

theorem answer_processor :
    (p.answer s r).processor =
      { p with statistics := p.statistics.noted r.source (r.written p.writing s.files) } := by
  rw [answer_eq]
  rfl

/-- The records of a request are logged in order, and nothing else happens to the session. -/
theorem answer_session :
    (p.answer s r).session =
      (r.records p.writing s.files).foldl Session.emit (r.entering s) := by
  rw [answer_eq]
  unfold Request.records
  rw [List.foldl_append]
  rfl

/-- Does what is asked in order, every request in the session that the one before leaves. -/
def perform (p : Processor) (s : Session) : List Request → Processor × Session
  | [] => (p, s)
  | r :: rs => (p.answer s r).processor.perform (p.answer s r).session rs

end Processor

end VectorPath
