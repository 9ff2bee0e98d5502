import VectorPath.CommandLine.Run
import VectorPath.Proofs.CommandLine.Request
import VectorPath.Proofs.Logging.Reconfiguration
import VectorPath.Proofs.Logging.Replacement
import VectorPath.Proofs.Processor.Ledger

/-!
# How a command line ends

A job ends in one of two ways. The text that a processor gives for its source goes to standard
output, with a newline behind it and nothing else, and the exit code is 0. Or something fails on the
way, be it a setting, the log, the source or the text: then nothing goes to standard output, an
error is reported on standard error, and the exit code is 1. What is logged and reported has no part
in it, as long as logging can be set up and does not write to what is read.
-/

namespace VectorPath.CommandLine

def errorMark : String := "\n✗ Error: "

/-- What has been gone through since the last tab comes first. -/
theorem prefix_fillTabs (start : ℕ) (since cs : List Char) :
    since.reverse <+: fillTabs start since cs := by
  fun_induction fillTabs start since cs with
  | case1 start since => exact List.prefix_rfl
  | case2 start since rest part column ih =>
      have hpart : since.reverse <+: part := by
        rw [show part = since.reverse ++ [' '] from List.reverse_cons]
        exact List.prefix_append _ _
      rw [List.append_assoc]
      exact hpart.trans (List.prefix_append _ _)
  | case3 start since rest h ih => exact List.prefix_append _ _
  | case4 start since c rest h h' ih =>
      rw [List.reverse_cons] at ih
      exact (List.prefix_append _ _).trans ih

/-- An error report is shown with its mark in front. -/
theorem errorMark_prefix_shown (message : String) :
    errorMark.toList <+: (shown (errorMark ++ message)).toList := by
  have hmark : errorMark.toList =
      '\n' :: [' ', ':', 'r', 'o', 'r', 'r', 'E', ' ', '✗'].reverse := by rfl
  unfold shown
  rw [String.toList_ofList, String.toList_append, List.filter_append, hmark]
  exact List.cons_prefix_cons.mpr ⟨rfl, prefix_fillTabs _ _ _⟩

/-- The line of a failure; where it happened may be said in another one. -/
def failureLine (f : Failure) : String := shown (errorMark ++ (failureLines f).1)

/-- A failure has been reported on standard error, after whatever has been logged. -/
def Reported (s : Session) (f : Failure) (t : Session) : Prop :=
  ∃ logged, s.messages <+: logged ∧ logged ++ [failureLine f] <+: t.messages ∧
    errorMark.toList <+: (failureLine f).toList

theorem reported_sayFailure {s t : Session} (h : s.messages <+: t.messages) (f : Failure) :
    Reported s f (sayFailure t f) := by
  refine ⟨t.messages, h, ?_, errorMark_prefix_shown _⟩
  unfold sayFailure failureLine
  obtain ⟨message, place?⟩ := failureLines f
  cases place? with
  | none => exact List.prefix_rfl
  | some place =>
      dsimp only
      split_ifs
      · exact List.prefix_rfl
      · exact List.prefix_append _ _

/-- The request for a source, with what standard input holds. -/
def Source.request (input : String) : Source → Request
  | .document place => .document place input
  | .glyph place name => .glyph place name

theorem encodeSource_eq [Depth] (p : Processor) (s : Session) (source : Source) :
    encodeSource p s source = p.answer s (source.request s.input) := by
  cases source <;> rfl

/-- What comes of a job: a processor is made with its settings and is asked for its source. -/
def Job.outcome [Depth] (s : Session) (job : Job) : Outcome String :=
  match Processor.start job.settings job.quiet s with
  | (.error f, _) => .error f
  | (.ok p, t) => (p.answer t (job.source.request s.input)).outcome

theorem Job.outcome_of_configure [Depth] {s t : Session} {job : Job}
    (h : s.configure job.settings.logging job.quiet = (.ok (), t)) :
    job.outcome s =
      (Processor.answer ⟨job.settings.writing, {}⟩ t (job.source.request s.input)).outcome := by
  unfold Job.outcome Processor.start
  rw [h]

/-- How a run ends that comes to an outcome. -/
inductive Ends (s : Session) (finished : Finished) : Outcome String → Prop
  | written {text : String} : finished.exit = 0 → finished.output = text ++ "\n" →
      Ends s finished (.ok text)
  | failed {f : Failure} : finished.exit = 1 → finished.output = "" →
      Reported s f finished.session → Ends s finished (.error f)

theorem messages_prefix_start (settings : Settings) (quiet : Bool) (s : Session) :
    s.messages <+: (Processor.start settings quiet s).2.messages := by
  rw [Processor.start_session]
  have hway := s.configured settings.logging quiet
  generalize s.configure settings.logging quiet = result at hway ⊢
  obtain ⟨outcome, t⟩ := result
  cases hway with
  | unknownConsole _ => exact List.prefix_rfl
  | unopened _ _ _ => exact List.prefix_rfl
  | unknownFileLevel _ _ _ _ => exact List.prefix_rfl
  | consoleOnly _ _ => exact Session.messages_prefix_emit (s.withConsole _) _
  | withFile _ _ _ _ => exact Session.messages_prefix_emit (s.withFile _ _ _) _

theorem start_input (settings : Settings) (quiet : Bool) (s : Session) :
    (Processor.start settings quiet s).2.input = s.input := by
  rw [Processor.start_session]
  exact s.configure_input settings.logging quiet

/-- A job ends as what comes of it. -/
theorem ends_runJob [Depth] (s : Session) (job : Job) : Ends s (runJob s job) (job.outcome s) := by
  have hmessages := messages_prefix_start job.settings job.quiet s
  have hinput := start_input job.settings job.quiet s
  unfold runJob Job.outcome
  generalize Processor.start job.settings job.quiet s = result at hmessages hinput ⊢
  obtain ⟨f | p, t⟩ := result
  · exact .failed rfl rfl (reported_sayFailure hmessages f)
  · dsimp only at hmessages hinput ⊢
    rw [encodeSource_eq, hinput]
    have hanswer := p.answer_messages t (job.source.request s.input)
    generalize p.answer t (job.source.request s.input) = step at hanswer ⊢
    obtain ⟨f | text, q, u⟩ := step
    · refine .failed rfl rfl (reported_sayFailure (hmessages.trans ?_) f)
      dsimp only at hanswer ⊢
      rw [hanswer]
      exact List.prefix_append _ _
    · exact .written rfl rfl

theorem ends_run [Depth] {integerOf : String → Option Int} {s : Session}
    {arguments : List String} {job : Job}
    (h : read integerOf arguments = .ok (.job job)) :
    Ends s (run integerOf s arguments) (job.outcome s) := by
  unfold run
  rw [h]
  exact ends_runJob s job

theorem Ends.exit_eq_zero_iff {s : Session} {finished : Finished} {o : Outcome String}
    (h : Ends s finished o) : finished.exit = 0 ↔ ∃ text, o = .ok text := by
  cases h with
  | written hexit _ => exact ⟨fun _ => ⟨_, rfl⟩, fun _ => hexit⟩
  | failed hexit _ _ =>
      rw [hexit]
      exact ⟨nofun, nofun⟩

/-- What standard output and the exit code show of an outcome is its text, if it has one. -/
theorem Ends.congr {s : Session} {finished finished' : Finished} {o o' : Outcome String}
    (h : Ends s finished o) (h' : Ends s finished' o') (ho : o.toOption = o'.toOption) :
    finished.exit = finished'.exit ∧ finished.output = finished'.output := by
  cases h with
  | written hexit houtput =>
      cases h' with
      | written hexit' houtput' =>
          obtain rfl := Option.some.inj ho
          exact ⟨hexit.trans hexit'.symm, houtput.trans houtput'.symm⟩
      | failed _ _ _ => cases ho
  | failed hexit houtput _ =>
      cases h' with
      | written _ _ => cases ho
      | failed hexit' houtput' _ => exact ⟨hexit.trans hexit'.symm, houtput.trans houtput'.symm⟩

/-- Logging can be set up for a job, and it does not write to what the job reads. -/
structure Job.LogsAside (s : Session) (job : Job) : Prop where
  level : ∃ level, Session.consoleLevel job.settings.logging job.quiet = .ok level
  file : ∀ log, job.settings.logging.file = some log → ∃ l opened, s.openLog log = .ok (l, opened) ∧
    ¬ (job.source.request s.input).Reads s.files l

theorem Describes.fileLevel {integerOf : String → Option Int} {c : Subcommand}
    {a : SplitArguments} {job : Job} (h : Describes integerOf c a job) :
    Level.find job.settings.logging.fileLevel = .ok .debug := by
  obtain ⟨precision, logFile, source, -, -, -, rfl⟩ := h
  exact Level.find_name .debug

namespace Job.LogsAside

variable {s : Session} {job : Job}

theorem exists_configure (h : job.LogsAside s)
    (hlevel : Level.find job.settings.logging.fileLevel = .ok .debug) :
    ∃ t, s.configure job.settings.logging job.quiet = (.ok (), t) := by
  obtain ⟨console, hconsole⟩ := h.level
  have hway := s.configured job.settings.logging job.quiet
  generalize s.configure job.settings.logging job.quiet = result at hway ⊢
  obtain ⟨outcome, t⟩ := result
  cases hway with
  | unknownConsole hunknown =>
      rw [hconsole] at hunknown
      cases hunknown
  | unopened _ hplace hopen =>
      obtain ⟨l, opened, hopened, -⟩ := h.file _ hplace
      rw [hopened] at hopen
      cases hopen
  | unknownFileLevel _ _ _ hunknown =>
      rw [hlevel] at hunknown
      cases hunknown
  | consoleOnly _ _ => exact ⟨_, rfl⟩
  | withFile _ _ _ _ => exact ⟨_, rfl⟩

/-- The log file is not what the job reads. -/
theorem not_reads (h : job.LogsAside s)
    (hlevel : Level.find job.settings.logging.fileLevel = .ok .debug) {l : Location}
    (hl : Session.HeldBy (s.sinkFor? job.settings.logging) l) :
    ¬ (job.source.request s.input).Reads s.files l := by
  obtain ⟨sink, hsink, rfl⟩ := hl
  cases hplace : job.settings.logging.file with
  | none =>
      unfold Session.sinkFor? at hsink
      rw [hplace] at hsink
      cases hsink
  | some log =>
      obtain ⟨m, opened, hopen, hread⟩ := h.file log hplace
      rw [Session.sinkFor_of_opened hplace hopen hlevel] at hsink
      obtain rfl := Option.some.inj hsink
      exact hread

/-- A log aside does not show in the text of a job. -/
theorem toOption_outcome [Depth] (h : job.LogsAside s)
    (hlevel : Level.find job.settings.logging.fileLevel = .ok .debug) :
    (job.outcome s).toOption =
      (((job.source.request s.input).written job.settings.writing s.files).map
        Prod.snd).toOption := by
  obtain ⟨t, ht⟩ := h.exists_configure hlevel
  obtain ⟨level, u, hsetUp, rfl⟩ := Session.exists_setUp ht
  have hreached := hsetUp.logsBy.reached.emit
    (.initialized (job.settings.logging.file.map Place.toText) job.settings.logging.consoleLevel)
  have hanswer := hreached.answer ⟨job.settings.writing, {}⟩ fun l => h.not_reads hlevel
  rw [outcome_of_configure ht]
  exact hanswer.toOption.symm

end Job.LogsAside

/-- Every command line for a path ends in one of two ways: with the text that a processor gives for
its source under its settings, or with an error report and nothing on standard output. Command lines
that differ in what is logged and reported only end alike, with logs aside. -/
theorem output_is_text_or_nothing [Depth] {integerOf : String → Option Int} {s : Session}
    {arguments : List String} {job : Job} (h : read integerOf arguments = .ok (.job job)) :
    Ends s (run integerOf s arguments) (job.outcome s) ∧
      ((run integerOf s arguments).exit = 0 ↔ ∃ text, job.outcome s = .ok text) ∧
      ∀ (arguments' : List String) (job' : Job), read integerOf arguments' = .ok (.job job') →
        SameRequest arguments arguments' → job.LogsAside s → job'.LogsAside s →
        (run integerOf s arguments).exit = (run integerOf s arguments').exit ∧
          (run integerOf s arguments).output = (run integerOf s arguments').output := by
  have hends : Ends s (run integerOf s arguments) (job.outcome s) := ends_run h
  refine ⟨hends, hends.exit_eq_zero_iff, ?_⟩
  intro arguments' job' h' hsame haside haside'
  obtain ⟨c, a, -, hdescribes⟩ := exists_describes h
  obtain ⟨c', a', -, hdescribes'⟩ := exists_describes h'
  obtain ⟨hsource, hwriting⟩ := hsame.jobs h h'
  apply hends.congr (ends_run h')
  rw [haside.toOption_outcome hdescribes.fileLevel, haside'.toOption_outcome hdescribes'.fileLevel,
    hsource, hwriting]

def plainArguments : List String := ["encode", "series.json", "-p", "2"]

def loggedArguments : List String :=
  ["encode", "--stats", "series.json", "--log-file=p.log", "-qp2"]

theorem sameRequest_loggedArguments : SameRequest plainArguments loggedArguments :=
  ⟨.encode, ⟨[(.precision, "2")], ["series.json"]⟩,
    ⟨[(.stats, ""), (.logFile, "p.log"), (.quiet, ""), (.precision, "2")], ["series.json"]⟩,
    ⟨⟨[], plainArguments⟩, _, rfl, rfl, rfl, rfl⟩, ⟨⟨[], loggedArguments⟩, _, rfl, rfl, rfl, rfl⟩,
    rfl⟩

def plainJob : Job := ⟨.document seriesPlace, ⟨{ precision := some 2 }, {}⟩, false, false⟩

def loggedJob : Job :=
  ⟨.document seriesPlace, ⟨{ precision := some 2 }, { file := some ⟨"", ["p.log"]⟩ }⟩, true, true⟩

def seriesSession : Session :=
  .start ⟨"T", "T"⟩ ⟨["w"], [(["w", "series.json"], .bytes (Text.encodeUtf8 "[7]"))]⟩ ""

theorem loggedJob_logsAside : loggedJob.LogsAside seriesSession := by
  refine ⟨⟨.error, rfl⟩, fun log hlog => ?_⟩
  obtain rfl := Option.some.inj hlog
  refine ⟨["w", "p.log"], _, rfl, ?_⟩
  rintro ⟨place, hplace, hlocate⟩
  obtain rfl := Option.some.inj hplace
  have hsame : ["w", "series.json"] = ["w", "p.log"] := Except.ok.inj hlocate
  revert hsame
  decide

open scoped Depth in
/-- A document is written alike with a log file and a summary that is kept quiet. -/
theorem series_output_is_text_or_nothing :
    read lenientInteger plainArguments = .ok (.job plainJob) ∧
      read lenientInteger loggedArguments = .ok (.job loggedJob) ∧
      Ends seriesSession (run lenientInteger seriesSession plainArguments)
        (plainJob.outcome seriesSession) ∧
      ((run lenientInteger seriesSession plainArguments).exit = 0 ↔
        ∃ text, plainJob.outcome seriesSession = .ok text) ∧
      (run lenientInteger seriesSession plainArguments).exit =
          (run lenientInteger seriesSession loggedArguments).exit ∧
        (run lenientInteger seriesSession plainArguments).output =
          (run lenientInteger seriesSession loggedArguments).output := by
  have hplain : read lenientInteger plainArguments = .ok (.job plainJob) := by rfl
  have hlogged : read lenientInteger loggedArguments = .ok (.job loggedJob) := by rfl
  obtain ⟨hends, hexit, hsame⟩ := output_is_text_or_nothing (s := seriesSession) hplain
  exact ⟨hplain, hlogged, hends, hexit, hsame loggedArguments loggedJob hlogged
    sameRequest_loggedArguments ⟨⟨.warning, rfl⟩, nofun⟩ loggedJob_logsAside⟩

end VectorPath.CommandLine
