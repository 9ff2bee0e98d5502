import VectorPath.Logging.Handler
import VectorPath.Logging.Record
import VectorPath.Settings
import VectorPath.Text.Utf8

/-!
# Sessions

A session holds what outlives a single run: the files, standard input, the handlers that log records
are given to and the messages written so far. Setting up logging first removes the handlers of the
setup before. A console handler is put in place next and one for the log file last, so a failure may
leave the console alone or nothing. Without any handler, warnings and everything above still reach
the messages.
-/

namespace VectorPath

/-- The time as records give it and as the lines of a log file begin with it. -/
structure Clock where
  stamp : String
  lineStart : String

structure Session where
  clock : Clock
  files : Files
  input : String
  handlers : List Handler
  /-- The lines written to standard error. -/
  messages : List String

namespace Session

/-- A session before logging has been set up. -/
def start (clock : Clock) (files : Files) (input : String) : Session :=
  { clock, files, input, handlers := [], messages := [] }

def say (s : Session) (line : String) : Session := { s with messages := s.messages ++ [line] }

def messageText (s : Session) : String := String.join (s.messages.map (· ++ "\n"))

def fileBytes (s : Session) (r : Record) : List UInt8 :=
  Text.encodeUtf8 (r.fileLine s.clock.lineStart s.clock.stamp ++ "\n")

def write (s : Session) (r : Record) : Outlet → Session
  | .console => s.say (r.line s.clock.stamp)
  | .file l => { s with files := s.files.append l (s.fileBytes r) }

/-- Gives a record to a handler, which writes it if its level passes. -/
def handle (r : Record) (s : Session) : Handler → Session
  | .marked outlet threshold => if threshold.passes r.level then s.write r outlet else s
  | .foreign _ => s

/-- The least level that reaches the console when there is no handler. -/
def lastResort : Level := .warning

def inForce (s : Session) : List Handler :=
  if s.handlers.isEmpty then [.marked .console lastResort] else s.handlers

def emit (s : Session) (r : Record) : Session := s.inForce.foldl (handle r) s

/-- Logs a record. One that has no line is not given to any handler. -/
def log (s : Session) (r : Record) : Outcome Unit × Session :=
  match r.render s.clock.stamp with
  | .error f => (.error f, s)
  | .ok _ => (.ok (), s.emit r)

def install (s : Session) (outlet : Outlet) (threshold : Level) : Session :=
  { s with handlers := s.handlers ++ [.marked outlet threshold] }

/-- The threshold of the console; a quiet one is not looked up. -/
def consoleLevel (settings : LogSettings) (quiet : Bool) : Except LevelMishap Level :=
  if quiet then .ok .error else Level.find settings.consoleLevel

/-- Opens a log file, which is created if it is missing. -/
def openLog (s : Session) (place : Place) : Outcome (Location × Files) :=
  if place.hasNul then mishap .nulInPlace
  else
    match s.files.openAppend place with
    | .ok opened => .ok opened
    | .error refusal => mishap (.refused refusal (s.files.fullText place))

/-- Installs a handler for the log file. The file is opened before its level is looked up, so it
exists even if the level does not. -/
def addFile (s : Session) (settings : LogSettings) : Outcome Unit × Session :=
  match settings.file with
  | none => (.ok (), s)
  | some place =>
      match s.openLog place with
      | .error f => (.error f, s)
      | .ok (location, files) =>
          match Level.find settings.fileLevel with
          | .error m => (mishap (.level m), { s with files })
          | .ok threshold => (.ok (), { s with files }.install (.file location) threshold)

/-- Sets up logging anew. The first record names the log file by the given text. -/
def configureAs (s : Session) (fileName? : Option String) (settings : LogSettings) (quiet : Bool) :
    Outcome Unit × Session :=
  let s := { s with handlers := Handler.removeMarked s.handlers }
  match consoleLevel settings quiet with
  | .error m => (mishap (.level m), s)
  | .ok console =>
      match (s.install .console console).addFile settings with
      | (.error f, s) => (.error f, s)
      | (.ok (), s) => (.ok (), s.emit (.initialized fileName? settings.consoleLevel))

def configure (s : Session) (settings : LogSettings) (quiet : Bool) : Outcome Unit × Session :=
  s.configureAs (settings.file.map Place.toText) settings quiet

end Session

end VectorPath
