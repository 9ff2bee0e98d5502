import VectorPath.CommandLine.Invocation
import VectorPath.CommandLine.Screen
import VectorPath.Processor

/-!
# Running a command line

Standard output carries nothing but path text, and everything else goes to standard error. A path
that was written ends with code 0, a fault or mishap with 1 and nothing on standard output, and a
command line that cannot be read with 2.
-/

namespace VectorPath.CommandLine

/-- What a run leaves behind. -/
structure Finished where
  exit : Nat
  output : String
  session : Session

def program : String := "pathdata"

def title : String := "Pathdata"

def version : String := "0.1.0"

def titleLine : String := title ++ " v" ++ version

def usage : String :=
  joinWith "\n" [
    "Usage: " ++ program ++ " [--version] [--help] encode [FILE] [OPTIONS]",
    "       " ++ program ++ " glyph FONT_FILE GLYPH_NAME [OPTIONS]",
    "",
    "  -p, --precision N      Round numbers to N decimal places, 0 to 15",
    "  --reject-non-finite    Fail on NaN and infinite numbers",
    "  --log-file FILE        Append log records to a file",
    "  --log-level NAME       Least level of log records on standard error",
    "  -s, --stats            Print a summary to standard error",
    "  -q, --quiet            Print path data and errors only",
    ""]

/-- What is said about a failure, and where it happened. -/
def failureLines : Failure → String × Option String
  | .fault (.document place reason) => ("Could not load commands: " ++ reason, some place)
  | .fault (.font place reason) => ("Could not load font: " ++ reason, some place)
  | .fault f => (f.message, none)
  | .mishap m => ("Unexpected error: " ++ m.message, none)

def sayFailure (s : Session) (f : Failure) : Session :=
  let (message, place?) := failureLines f
  let s := s.say (shown ("\n✗ Error: " ++ message))
  match place? with
  | some place => if place = "" then s else s.say (shown ("  " ++ place))
  | none => s

/-- Letters with their counts, in ascending order. -/
def sortedCounts (counts : List (String × Int)) : List (String × Int) :=
  counts.mergeSort fun a b => decide (a.1 ≤ b.1)

def countText (entry : String × Int) : String :=
  entry.1 ++ "×" ++ String.ofList (Layout.integer entry.2)

def saySummary (s : Session) (source : String) (statistics : Statistics) : Session :=
  let s := s.say ("\n" ++ titleLine)
  let s := s.say (String.ofList (List.replicate 44 '─'))
  let s := s.say (shown ("  " ++ source))
  let s := s.say ("\n✓ Encoded " ++ toString statistics.segments ++ " commands · " ++
    String.ofList (Layout.integer statistics.relativeCount) ++ " relative")
  if statistics.counts.isEmpty then s
  else s.say ("  " ++ joinWith " · " ((sortedCounts statistics.counts).map countText))

def encodeSource [Depth] (p : Processor) (s : Session) : Source → Step
  | .document place => p.encodeDocument s place
  | .glyph place name => p.encodeGlyph s place name

def failed (s : Session) (f : Failure) : Finished :=
  { exit := 1, output := "", session := sayFailure s f }

def runJob [Depth] (s : Session) (job : Job) : Finished :=
  match Processor.start job.settings job.quiet s with
  | (.error f, s) => failed s f
  | (.ok p, s) =>
      let step := encodeSource p s job.source
      match step.outcome with
      | .error f => failed step.session f
      | .ok text =>
          { exit := 0
            output := text ++ "\n"
            session :=
              if job.stats && !job.quiet then
                saySummary step.session job.source.text step.processor.statistics
              else step.session }

def runInvocation [Depth] (s : Session) : Invocation → Finished
  | .help => { exit := 0, output := usage, session := s }
  | .version => { exit := 0, output := "", session := s.say titleLine }
  | .job job => runJob s job

def run [Depth] (integerOf : String → Option Int) (s : Session) (arguments : List String) :
    Finished :=
  match read integerOf arguments with
  | .ok invocation => runInvocation s invocation
  | .error e => { exit := 2, output := "", session := s.say (shown e.message) }

end VectorPath.CommandLine
