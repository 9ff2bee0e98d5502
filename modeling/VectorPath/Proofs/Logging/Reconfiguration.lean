import Mathlib.Data.Nat.Notation
import VectorPath.Proofs.Files.Growth
import VectorPath.Proofs.Logging.Emission
import VectorPath.Proofs.Logging.Setup
import VectorPath.Proofs.Processor.Calls

/-!
# Setting up logging that fails

Setting up logging removes the old handlers before anything can fail. So a failure does not leave
logging as it was: whatever log file there was is no longer written to, and the console keeps the
threshold that had been reached, or no handler at all. What remains is the same for every reason of
the failure, apart from that threshold and from a log file that has been created for nothing.
-/

namespace VectorPath

namespace Session

/-- The least level that reaches the messages after a failed setup. A console that has not been
reached is made up for only if other code has no handlers either. -/
def failedThreshold? (s : Session) (settings : LogSettings) (quiet : Bool) : Option Level :=
  match consoleLevel settings quiet with
  | .ok level => some level
  | .error _ => if s.others.isEmpty then some lastResort else none

/-- Whether a record reaches the messages after a failed setup. -/
def passesFailed (s : Session) (settings : LogSettings) (quiet : Bool) (r : Record) : Bool :=
  (s.failedThreshold? settings quiet).any fun threshold => threshold.passes r.level

/-- The handler of the console as far as a setup has come. -/
def consoleHandler? (settings : LogSettings) (quiet : Bool) : Option Handler :=
  (consoleLevel settings quiet).toOption.map (Handler.marked .console)

/-- Opening a log file for appending, which creates it unless it is there. -/
def Opened (s : Session) (place : Place) (opened : Files) : Prop :=
  opened = s.files ∨ ∃ l, s.files.locateFull place = .ok l ∧ s.files.entry? l = none ∧
    opened = { s.files with entries := s.files.entries ++ [(l, .bytes [])] }

/-- What a failed setup leaves of a session. -/
structure LeftBy (s : Session) (settings : LogSettings) (quiet : Bool) (t : Session) : Prop where
  messages : t.messages = s.messages
  clock : t.clock = s.clock
  handlers : t.handlers = s.others ++ (consoleHandler? settings quiet).toList
  files : t.files = s.files ∨ (∃ m, Level.find settings.fileLevel = .error m) ∧
    ∃ place, settings.file = some place ∧ s.Opened place t.files

theorem openAppend_files {files opened : Files} {place : Place} {l : Location}
    (h : files.openAppend place = .ok (l, opened)) :
    opened = files ∨ ∃ l, files.locateFull place = .ok l ∧ files.entry? l = none ∧
      opened = { files with entries := files.entries ++ [(l, .bytes [])] } := by
  obtain ⟨hlocate, -, rfl⟩ := Files.openAppend_eq_ok.mp h
  cases hentry : files.entry? l with
  | some e => exact .inl rfl
  | none =>
      refine .inr ⟨l, hlocate, hentry, ?_⟩
      unfold Files.set
      rw [hentry]
      rfl

theorem openLog_files {s : Session} {place : Place} {l : Location} {opened : Files}
    (h : s.openLog place = .ok (l, opened)) : s.Opened place opened :=
  openAppend_files (openLog_eq_ok.mp h).2

theorem configure_error {s t : Session} {settings : LogSettings} {quiet : Bool} {f : Failure}
    (h : s.configure settings quiet = (.error f, t)) : s.LeftBy settings quiet t := by
  have hreached : ∀ console, consoleLevel settings quiet = .ok console →
      Handler.installed console none = (consoleHandler? settings quiet).toList := by
    intro console hconsole
    unfold consoleHandler?
    rw [hconsole]
    rfl
  have hway := s.configured settings quiet
  rw [h] at hway
  cases hway with
  | unknownConsole hconsole =>
      refine ⟨rfl, rfl, ?_, .inl rfl⟩
      unfold consoleHandler?
      rw [hconsole]
      rfl
  | unopened hconsole _ _ =>
      exact ⟨rfl, rfl, congrArg (s.others ++ ·) (hreached _ hconsole), .inl rfl⟩
  | unknownFileLevel hconsole hfile hopen hlevel =>
      -- The file has been opened, so it may have been created.
      exact ⟨rfl, rfl, congrArg (s.others ++ ·) (hreached _ hconsole),
        .inr ⟨⟨_, hlevel⟩, _, hfile, openLog_files hopen⟩⟩

namespace LeftBy

variable {s t : Session} {settings : LogSettings} {quiet : Bool}

theorem logsToNoFile (h : s.LeftBy settings quiet t) : t.LogsToNoFile := by
  intro l threshold hmem
  rw [h.handlers] at hmem
  rcases List.mem_append.mp hmem with hother | hown
  · exact s.marked_not_mem_others _ _ hother
  · simp [consoleHandler?] at hown

theorem copies_console (h : s.LeftBy settings quiet t) (r : Record) :
    t.copies .console r = if s.passesFailed settings quiet r then 1 else 0 := by
  have hhandlers := h.handlers
  unfold passesFailed failedThreshold?
  unfold consoleHandler? at hhandlers
  cases hconsole : consoleLevel settings quiet with
  | ok level =>
      rw [hconsole] at hhandlers
      have hinstalled : t.HasInstalled level none := by
        unfold HasInstalled
        rw [hhandlers]
        exact s.hasInstalled_withHandlers level none
      exact hinstalled.copies_console r
  | error m =>
      rw [hconsole] at hhandlers
      change t.handlers = s.others ++ [] at hhandlers
      rw [List.append_nil] at hhandlers
      unfold copies inForce
      rw [hhandlers]
      dsimp only
      split
      · simp [Handler.writes, List.countP_cons]
      · rw [Handler.countP_writes, filter_isMarked_others]
        rfl

end LeftBy

end Session

namespace Processor

theorem entering_kept (s : Session) (r : Request) : s.Kept (r.entering s) := by
  cases r <;> exact ⟨rfl, rfl⟩

theorem answer_messages [Depth] (p : Processor) (s : Session) (r : Request) :
    (p.answer s r).session.messages = s.messages ++ s.lines (r.records p.writing s.files) := by
  rw [answer_session, Session.foldl_emit_messages, (entering_kept s r).lines]
  cases r <;> rfl

theorem answer_files [Depth] (p : Processor) {s : Session} (r : Request) (h : s.LogsToNoFile) :
    (p.answer s r).session.files = s.files := by
  rw [answer_session, Session.foldl_emit_files ((entering_kept s r).logsToNoFile h)]
  cases r <;> rfl

theorem answer_kept [Depth] (p : Processor) (s : Session) (r : Request) :
    s.Kept (p.answer s r).session := by
  rw [answer_session]
  exact (entering_kept s r).trans (Session.foldl_emit_kept _ _)

/-- Without a log file any requests change no file and leave the lines of their records. -/
theorem perform_without_file [Depth] {p : Processor} {s : Session} (h : s.LogsToNoFile)
    (rs : List Request) :
    (p.perform s rs).2.files = s.files ∧
      (p.perform s rs).2.messages =
        s.messages ++ rs.flatMap fun r => s.lines (r.records p.writing s.files) := by
  induction rs generalizing p s with
  | nil => exact ⟨rfl, (List.append_nil _).symm⟩
  | cons r rs ih =>
      -- The files stay, so the records of later requests are told from the files before.
      have hkept := p.answer_kept s r
      have hfiles := p.answer_files r h
      obtain ⟨ihfiles, ihmessages⟩ := ih (p := (p.answer s r).processor) (hkept.logsToNoFile h)
      have hwriting : (p.answer s r).processor.writing = p.writing := by
        rw [answer_processor]
      constructor
      · exact ihfiles.trans hfiles
      · change (((p.answer s r).processor.perform (p.answer s r).session rs).2).messages = _
        rw [ihmessages, answer_messages, hfiles, hwriting, List.flatMap_cons, List.append_assoc]
        simp only [hkept.lines]

end Processor

theorem Processor.start_error {settings : Settings} {quiet : Bool} {s t : Session} {f : Failure}
    (h : Processor.start settings quiet s = (.error f, t)) :
    s.configure settings.logging quiet = (.error f, t) := by
  unfold Processor.start at h
  split at h
  next f' t' hconfigure =>
    obtain ⟨hf, ht⟩ := Prod.mk.inj h
    rw [hconfigure, ht, Except.error.inj hf]
  next => cases h

/-- After a processor could not be had for the sake of its logging, the requests of any processor
write to no file, and they write to the messages what passes the threshold of the failed setup. -/
theorem failed_start_silences_log_files [Depth] {settings : Settings} {quiet : Bool} {s t : Session}
    {f : Failure} (h : Processor.start settings quiet s = (.error f, t)) (p : Processor)
    (rs : List Request) :
    s.LeftBy settings.logging quiet t ∧ (p.perform t rs).2.files = t.files ∧
      (p.perform t rs).2.messages = s.messages ++ rs.flatMap fun r =>
        ((r.records p.writing t.files).filter (s.passesFailed settings.logging quiet)).map
          (Record.line s.clock.stamp) := by
  have hleft := Session.configure_error (Processor.start_error h)
  obtain ⟨hfiles, hmessages⟩ := Processor.perform_without_file (p := p) hleft.logsToNoFile rs
  refine ⟨hleft, hfiles, ?_⟩
  rw [hmessages, hleft.messages, ← hleft.clock]
  simp only [Session.lines_of_copies hleft.copies_console]

def loggingSession : Session :=
  (Processor.start ⟨{}, { file := some ⟨"", ["p.log"]⟩ }⟩ false
    (.start ⟨"T", "T"⟩ ⟨["w"], []⟩ "")).2

/-- Settings whose console level is not a level. -/
def loudSettings : Settings := ⟨{}, { consoleLevel := "LOUD" }⟩

theorem start_loud :
    Processor.start loudSettings false loggingSession =
      (.error (.mishap (.level (.unknown "LOUD"))), { loggingSession with handlers := [] }) := by
  have hlevel : Session.consoleLevel loudSettings.logging false = .error (.unknown "LOUD") := by
    rfl
  unfold Processor.start Session.configure Session.configureAs
  rw [hlevel]
  rfl

def closingRequest : Request := .items [(Command.absolute .closePath).toValue] "later"

open scoped Depth in
/-- Once the console level is unknown, a path is written without a record in the log file. -/
theorem loud_start_silences_log_files :
    (Processor.perform ⟨{}, {}⟩ { loggingSession with handlers := [] } [closingRequest]).2.files =
      loggingSession.files :=
  (failed_start_silences_log_files start_loud ⟨{}, {}⟩ [closingRequest]).2.1

/-- The number of bytes of a file; none for anything else. -/
def byteCount : Option Entry → ℕ
  | some (.bytes content) => content.length
  | _ => 0

open scoped Depth in
/-- The log file of a session is not written to as if the failed setup had not been made. -/
theorem failed_start_changes_logging :
    ¬ ∀ (settings : Settings) (quiet : Bool) (s t : Session) (f : Failure),
      Processor.start settings quiet s = (.error f, t) →
      ∀ (p : Processor) (r : Request) (l : Location) (threshold : Level),
        .marked (.file l) threshold ∈ s.handlers →
        (p.answer t r).session.files.entry? l = (p.answer s r).session.files.entry? l := by
  intro h
  have hsame := h loudSettings false loggingSession _ _ start_loud ⟨{}, {}⟩ closingRequest
    ["w", "p.log"] .debug (by decide)
  have hsize := congrArg byteCount hsame
  revert hsize
  decide +kernel

end VectorPath
