import Std.Time
import VectorPath.CommandLine.Run

/-!
# The program

Brings in the files, the input and the time that a command line needs, runs it, and carries out
what it leaves behind: the lines for standard error, the text for standard output, what was added
to the log file, and the exit code.
-/

namespace VectorPath.Program

open VectorPath.CommandLine
open scoped VectorPath.Depth

/-- What is at a path in a directory: a file with its bytes, a directory, or nothing. -/
def observe (path : String) : IO (Option Entry) := do
  match ← (IO.FS.readBinFile path).toBaseIO with
  | .ok bytes => return some (.bytes bytes.toList)
  | .error (.inappropriateType ..) => return some .directory
  | .error _ => return none

/-- Adds what is at each place on the way to a place. -/
def addPlace (files : Files) (place : Place) : IO Files := do
  let mut files := files
  for k in List.range (place.parts.length + 1) do
    let step : Place := ⟨place.root, place.parts.take k⟩
    match files.locate step with
    | .error _ => return files
    | .ok location =>
        if (files.entry? location).isNone then
          match ← observe step.toText with
          | some entry => files := files.set location entry
          | none => return files
  return files

def placeOfSource : Source → Place
  | .document place => place
  | .glyph place _ => place

/-- The files that a job needs, seen from a working directory. -/
def filesFor (directory : Location) (job : Job) : IO Files := do
  let place := placeOfSource job.source
  let unseen : Files := ⟨directory, []⟩
  let files ← if place = Place.standardInput then pure unseen else addPlace unseen place
  match job.settings.logging.file with
  | some place => addPlace files (files.absolute place)
  | none => return files

def bytesAt (files : Files) (l : Location) : List UInt8 :=
  match files.entry? l with
  | some (.bytes content) => content
  | _ => []

/-- Adds to a log file what a run has added to it. -/
def keepLog (before after : Files) (place : Place) : IO Unit := do
  match before.openAppend place with
  | .error _ => return
  | .ok (location, _) =>
      if (after.entry? location).isSome then
        let old := (bytesAt before location).length
        let handle ← IO.FS.Handle.mk (before.fullText place) .append
        handle.write ⟨((bytesAt after location).drop old).toArray⟩

def now : IO Clock := do
  let time ← Std.Time.PlainDateTime.now
  return {
    stamp := time.format "uuuu-MM-dd'T'HH:mm:ss.SSSSSS'Z'"
    lineStart := time.format "uuuu-MM-dd HH:mm:ss,SSS" }

/-- Standard input as a text with unified line ends, if the job reads it. -/
def readInput (job : Job) : IO (Outcome String) := do
  if job.source = .document Place.standardInput then
    let bytes ← (← IO.getStdin).readBinToEnd
    match Text.decodeUtf8 bytes.toList with
    | .ok text => return .ok (Text.withUnifiedNewlines text)
    | .error e => return mishap (.undecodable e)
  else return .ok ""

def report (finished : Finished) : IO UInt32 := do
  (← IO.getStderr).putStr finished.session.messageText
  (← IO.getStdout).putStr finished.output
  return finished.exit.toUInt32

/-- Does a job with the files and the input it needs. -/
def runJob (directory : Location) (clock : Clock) (job : Job) : IO UInt32 := do
  let files ← filesFor directory job
  match ← readInput job with
  | .error f => report (failed (.start clock files "") f)
  | .ok input =>
      let finished := CommandLine.runJob (.start clock files input) job
      match job.settings.logging.file with
      | some place => keepLog files finished.session.files place
      | none => pure ()
      report finished

end VectorPath.Program

open scoped VectorPath.Depth in
def main (arguments : List String) : IO UInt32 := do
  let directory := (VectorPath.Place.ofText (← IO.currentDir).toString).parts
  let clock ← VectorPath.Program.now
  match VectorPath.CommandLine.read VectorPath.CommandLine.lenientInteger arguments with
  | .ok (.job job) => VectorPath.Program.runJob directory clock job
  | _ =>
      let session := VectorPath.Session.start clock ⟨directory, []⟩ ""
      let finished :=
        VectorPath.CommandLine.run VectorPath.CommandLine.lenientInteger session arguments
      VectorPath.Program.report finished
