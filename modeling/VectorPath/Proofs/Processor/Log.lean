import VectorPath.Proofs.Files.Growth
import VectorPath.Proofs.Logging.Emission
import VectorPath.Proofs.Logging.Lines
import VectorPath.Proofs.Logging.Setup
import VectorPath.Proofs.Processor.Ledger

/-!
# The log of a run

From the making of a processor with a log file on, the log is told from the calls and from what came
of them: a record of the setup, one of every source that has been loaded, and one of every text or
fault. Each of them is a line of the messages and a line of the log file, in order, unless its level
is below the threshold, and it can be read back from its line. What the file held before stays in
front of the lines.
-/

namespace VectorPath

namespace Answered

variable [Depth]

/-- The record of how a call ended; a mishap leaves none. -/
def ending (m : Answered) : List Record :=
  match m.outcome with
  | .ok text => [.encoded m.request.source m.segments.length text.length]
  | .error (.fault f) => [.failed m.request.source f]
  | .error (.mishap _) => []

/-- The records of a call: a source that it has loaded, and how it ended. -/
def events (m : Answered) : List Record :=
  m.request.loadingRecords m.session.files ++ m.ending

/-- The names of the fields of a record that a run leaves differ. -/
theorem nodup_fields {m : Answered} {r : Record} (h : r ∈ m.events) :
    (r.fields.map Prod.fst).Nodup := by
  have hloaded : ∀ source loaded, r ∈ Request.loadRecords source loaded →
      (r.fields.map Prod.fst).Nodup := by
    rintro source (f | cs) hr
    · cases hr
    · obtain rfl := List.mem_singleton.mp hr
      simp [Record.loaded]
  rcases List.mem_append.mp h with hloading | hending
  · unfold Request.loadingRecords at hloading
    split at hloading
    · exact hloaded _ _ hloading
    · cases hloading
  · unfold Answered.ending at hending
    split at hending
    · obtain rfl := List.mem_singleton.mp hending
      simp [Record.encoded]
    · obtain rfl := List.mem_singleton.mp hending
      simp [Record.failed]
    · cases hending

end Answered

namespace Processor

/-- Requests that are made one after the other, each with its outcome and the session before. -/
def calls [Depth] (p : Processor) (s : Session) : List Request → List Answered
  | [] => []
  | r :: rs =>
      ⟨⟨r, s⟩, (p.answer s r).outcome⟩ ::
        (p.answer s r).processor.calls (p.answer s r).session rs

/-- The records that a request leaves can be told from its outcome. -/
theorem records_eq_events [Depth] (p : Processor) (s : Session) (r : Request) :
    r.records p.writing s.files = Answered.events ⟨⟨r, s⟩, (p.answer s r).outcome⟩ := by
  rw [answer_outcome]
  unfold Request.records Answered.events
  congr 1
  cases hwritten : r.written p.writing s.files with
  | error f => cases f <;> rfl
  | ok written =>
      have hsegments := congrArg List.length (Request.segments_of_written hwritten)
      rw [List.length_map] at hsegments
      change _ = [Record.encoded r.source (r.segments s.files).length written.2.length]
      rw [hsegments]
      rfl

section LogFile

variable [Depth] {s : Session} {l : Location}

theorem answer_loggedTo (p : Processor) (hfile : s.files.HoldsFile l) (r : Request) :
    s.LoggedTo l (Answered.events ⟨⟨r, s⟩, (p.answer s r).outcome⟩) (p.answer s r).session := by
  rw [← records_eq_events, answer_session]
  have hentering : s.LoggedTo l [] (r.entering s) := by
    cases r <;> exact ⟨⟨rfl, rfl⟩, (List.append_nil _).symm, hfile, (List.append_nil _).symm⟩
  exact hentering.trans (Session.foldl_emit_loggedTo hentering.file _)

theorem perform_loggedTo (p : Processor) (hfile : s.files.HoldsFile l) (rs : List Request) :
    s.LoggedTo l ((p.calls s rs).flatMap Answered.events) (p.perform s rs).2 := by
  induction rs generalizing p s with
  | nil => exact .refl hfile
  | cons r rs ih =>
      have hone := answer_loggedTo p hfile r
      exact hone.trans (ih _ hone.file)

end LogFile

theorem start_ok {settings : Settings} {quiet : Bool} {s t : Session} {p : Processor}
    (h : Processor.start settings quiet s = (.ok p, t)) :
    s.configure settings.logging quiet = (.ok (), t) := by
  unfold Processor.start at h
  split at h
  next => cases h
  next t' hconfigure =>
    rw [hconfigure, (Prod.mk.inj h).2]

end Processor

/-- The log that a run leaves, when its events have been written to the messages and to the file
that was opened in the session before. -/
structure Session.LeavesLog [Depth] (s : Session) (console : Level) (sink : FileSink)
    (events : List Record) (t : Session) : Prop where
  messages : t.messages = s.messages ++
    (events.filter fun r => console.passes r.level).map (Record.line s.clock.stamp)
  file : t.files.contentAt sink.location = s.files.contentAt sink.location ++
    (events.filter fun r => sink.threshold.passes r.level).flatMap fun r =>
      Text.encodeUtf8 (r.fileLine s.clock.lineStart s.clock.stamp ++ "\n")
  messageLines : ∀ r ∈ events, '\n' ∉ (r.line s.clock.stamp).toList
  fileLines : '\n' ∉ s.clock.lineStart.toList →
    ∀ r ∈ events, '\n' ∉ (r.fileLine s.clock.lineStart s.clock.stamp).toList
  fileObjects : ∀ r ∈ events,
    (r.line s.clock.stamp).toList <:+ (r.fileLine s.clock.lineStart s.clock.stamp).toList
  objects : ∀ r ∈ events, r.HasShortCounts s.clock.stamp →
    Json.parse (r.line s.clock.stamp).toList = .ok (r.object s.clock.stamp)

/-- After a processor with a log file has been made, its requests are logged completely and in
order, and only levels keep a record out of the messages or out of the file. -/
theorem log_records_every_event [Depth] {settings : Settings} {quiet : Bool} {s t : Session}
    {p : Processor} (h : Processor.start settings quiet s = (.ok p, t)) {place : Place}
    (hplace : settings.logging.file = some place) (rs : List Request) :
    ∃ console threshold location,
      Session.consoleLevel settings.logging quiet = .ok console ∧
      Level.find settings.logging.fileLevel = .ok threshold ∧
      s.files.locateFull place = .ok location ∧
      s.LeavesLog console ⟨location, threshold⟩
        (.initialized (some place.toText) settings.logging.consoleLevel ::
          (p.calls t rs).flatMap Answered.events)
        (p.perform t rs).2 := by
  obtain ⟨console, threshold, location, opened, hconsole, hopen, hlevel, ht⟩ :=
    Session.exists_withFile_of_configure (Processor.start_ok h) hplace
  have happend := (Session.openLog_eq_ok.mp hopen).2
  obtain ⟨hfile, hcontent⟩ := Files.openAppend_holdsFile happend
  let sink : FileSink := ⟨location, threshold⟩
  have hinstalled : (s.withFile console sink opened).HasInstalled console (some sink) :=
    s.hasInstalled_withHandlers console (some sink)
  -- The first record is logged by the setup, the others by the requests.
  have hfirst : (s.withFile console sink opened).LoggedTo location [_] _ :=
    Session.emit_loggedTo hfile
      (.initialized (some place.toText) settings.logging.consoleLevel)
  rw [← ht] at hfirst
  have hlogged := hfirst.trans (p.perform_loggedTo hfirst.file rs)
  refine ⟨console, threshold, location, hconsole, hlevel, (Files.openAppend_eq_ok.mp happend).1,
    ?_, ?_, ?_, ?_, ?_, ?_⟩
  · exact hlogged.messages.trans
      (congrArg _ (Session.lines_of_copies hinstalled.copies_console _))
  · rw [hlogged.content, Session.bytesAt_of_copies hinstalled.copies_file]
    exact congrArg (· ++ _) hcontent
  · intro r _
    exact Record.newline_not_mem_line s.clock.stamp r
  · intro hclock r _
    exact Record.newline_not_mem_fileLine hclock s.clock.stamp r
  · intro r _
    exact Record.line_suffix_fileLine s.clock.lineStart s.clock.stamp r
  · intro r hr
    apply Record.parse_line
    rcases List.mem_cons.mp hr with rfl | hevent
    · simp [Record.initialized]
    · obtain ⟨m, -, hm⟩ := List.mem_flatMap.mp hevent
      exact Answered.nodup_fields hm

/-- Settings with a log file at a place where there is one already. -/
def appendingSettings : Settings := ⟨{}, { file := some ⟨"", ["p.log"]⟩ }⟩

def appendingSession : Session :=
  .start ⟨"T", "T"⟩ ⟨["w"], [(["w", "p.log"], .bytes (Text.encodeUtf8 "old\n"))]⟩ ""

open scoped Depth in
/-- A text, a fault and a mishap are logged after what the log file held before. -/
theorem appending_run_leaves_log :
    ∃ p t, Processor.start appendingSettings false appendingSession = (.ok p, t) ∧
      ∃ console threshold location,
        Session.consoleLevel appendingSettings.logging false = .ok console ∧
        Level.find appendingSettings.logging.fileLevel = .ok threshold ∧
        appendingSession.files.locateFull ⟨"", ["p.log"]⟩ = .ok location ∧
        appendingSession.LeavesLog console ⟨location, threshold⟩
          (.initialized (some "p.log") "WARNING" ::
            (p.calls t ((sampleCalls appendingSession).map Asked.request)).flatMap Answered.events)
          (p.perform t ((sampleCalls appendingSession).map Asked.request)).2 := by
  have hstart : Processor.start appendingSettings false appendingSession =
      (.ok ⟨{}, {}⟩, (Processor.start appendingSettings false appendingSession).2) :=
    Prod.ext rfl rfl
  exact ⟨_, _, hstart, log_records_every_event hstart rfl _⟩

end VectorPath
