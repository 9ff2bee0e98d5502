import VectorPath.Proofs.Processor.History

/-!
# Setting up logging again

Every setup replaces the marked handlers, whatever these were, and leaves the foreign ones alone. So
what a run logs is told period by period: the records from one setup to the next go to standard
error and to the log file of that setup, each of them once and by the levels of that setup, and no
file is touched that only other setups have named. A file that is named again is continued, also
under another name.
-/

namespace VectorPath

namespace Session

theorem foldl_handle_others (base s : Session) (r : Record) :
    base.others.foldl (handle r) s = s := by
  unfold others
  induction base.handlers with
  | nil => rfl
  | cons h hs ih =>
      cases h with
      | marked outlet threshold => exact ih
      | foreign number => exact ih

/-- The log file that settings ask for, with its level. -/
def sinkFor? (s : Session) (settings : LogSettings) : Option FileSink := do
  let place ← settings.file
  let location ← (s.files.locateFull place).toOption
  let threshold ← (Level.find settings.fileLevel).toOption
  return { location, threshold }

/-- The bytes that records leave at a location when a log file is open, or none. -/
def bytesFor (s : Session) (sink? : Option FileSink) (l : Location) (rs : List Record) :
    List UInt8 :=
  match sink? with
  | some sink =>
      if sink.location = l then
        (rs.filter fun r => sink.threshold.passes r.level).flatMap s.fileBytes
      else []
  | none => []

end Session

/-- A setup of logging, with the records that are logged until the next one. -/
structure Period where
  settings : LogSettings
  quiet : Bool
  records : List Record

namespace Period

/-- All records of a period; the first one is that of its setup. -/
def events (p : Period) : List Record :=
  .initialized (p.settings.file.map Place.toText) p.settings.consoleLevel :: p.records

/-- The lines that a period leaves in the messages. -/
def lines (s : Session) (p : Period) : List String :=
  match Session.consoleLevel p.settings p.quiet with
  | .ok console =>
      (p.events.filter fun r => console.passes r.level).map (Record.line s.clock.stamp)
  | .error _ => []

/-- The bytes that a period leaves at a location. -/
def bytesAt (s : Session) (l : Location) (p : Period) : List UInt8 :=
  s.bytesFor (s.sinkFor? p.settings) l p.events

end Period

/-- A session goes through periods if every setup of them succeeds. -/
inductive Session.GoesThrough : Session → List Period → Session → Prop
  | nil (s : Session) : GoesThrough s [] s
  | cons {s t u : Session} {p : Period} {rest : List Period} :
      s.configure p.settings p.quiet = (.ok (), t) →
      GoesThrough (p.records.foldl emit t) rest u → GoesThrough s (p :: rest) u

namespace Session

variable {base s t u : Session} {settings : LogSettings} {quiet : Bool} {level : Level}
  {sink? : Option FileSink}

/-- A session in which a setup is in force that was made in an earlier one. -/
structure LogsBy (base : Session) (level : Level) (sink? : Option FileSink) (s : Session) :
    Prop where
  clock : s.clock = base.clock
  handlers : s.handlers = base.others ++ Handler.installed level sink?
  file : ∀ sink, sink? = some sink → s.files.HoldsFile sink.location
  reached : s.Reached base.files (HeldBy sink?)

/-- What records do while a setup is in force: each is given to the handlers of that setup, which
write it once at most, and that is all. -/
structure LogsOnly (s : Session) (level : Level) (sink? : Option FileSink) (rs : List Record)
    (t : Session) : Prop where
  messages : t.messages = s.messages ++
    (rs.filter fun r => level.passes r.level).map (Record.line s.clock.stamp)
  content : ∀ l, t.files.contentAt l = s.files.contentAt l ++ s.bytesFor sink? l rs
  entries : ∀ l, ¬ HeldBy sink? l → t.files.entry? l = s.files.entry? l
  handlers : t.handlers = s.others ++ Handler.installed level sink?
  handled : ∀ r, t.emit r = (Handler.installed level sink?).foldl (handle r) t
  once : ∀ outlet r, t.copies outlet r ≤ 1

theorem bytesFor_of_not_heldBy {l : Location} (hl : ¬ HeldBy sink? l) (s : Session)
    (rs : List Record) : s.bytesFor sink? l rs = [] := by
  cases sink? with
  | none => rfl
  | some sink => exact if_neg fun heq => hl ⟨sink, rfl, heq⟩

theorem HasInstalled.copies_le_one (h : s.HasInstalled level sink?) (outlet : Outlet)
    (r : Record) : s.copies outlet r ≤ 1 := by
  cases outlet with
  | console =>
      rw [h.copies_console]
      split <;> decide
  | file l =>
      by_cases hheld : HeldBy sink? l
      · obtain ⟨sink, rfl, rfl⟩ := hheld
        rw [h.copies_file]
        split <;> decide
      · rw [h.copies_other hheld]
        exact Nat.zero_le 1

namespace LogsBy

theorem hasInstalled (h : base.LogsBy level sink? s) : s.HasInstalled level sink? := by
  have hbase := base.hasInstalled_withHandlers level sink?
  unfold HasInstalled
  rw [h.handlers]
  exact hbase

theorem others (h : base.LogsBy level sink? s) : s.others = base.others := by
  have hbase := base.others_withHandlers _ (filter_not_isMarked_installed level sink?)
  unfold Session.others
  rw [h.handlers]
  exact hbase

theorem foldl_emit (h : base.LogsBy level sink? s) (rs : List Record) :
    base.LogsBy level sink? (rs.foldl emit s) where
  clock := (foldl_emit_kept s rs).clock.trans h.clock
  handlers := (foldl_emit_kept s rs).handlers.trans h.handlers
  file sink hsink := (foldl_emit_loggedTo (h.file sink hsink) rs).file
  reached := h.reached.foldl_emit rs

theorem emit_eq (h : base.LogsBy level sink? s) (r : Record) :
    s.emit r = (Handler.installed level sink?).foldl (handle r) s := by
  unfold emit
  rw [h.hasInstalled.inForce_eq, h.handlers, List.foldl_append, foldl_handle_others]

theorem entries (h : base.LogsBy level sink? s) (rs : List Record) {l : Location}
    (hl : ¬ HeldBy sink? l) : (rs.foldl emit s).files.entry? l = s.files.entry? l := by
  rw [(h.foldl_emit rs).reached.grown.entries l hl, h.reached.grown.entries l hl]

theorem content (h : base.LogsBy level sink? s) (rs : List Record) (l : Location) :
    (rs.foldl emit s).files.contentAt l = s.files.contentAt l ++ s.bytesFor sink? l rs := by
  by_cases hheld : HeldBy sink? l
  · obtain ⟨sink, rfl, rfl⟩ := hheld
    rw [(foldl_emit_loggedTo (h.file sink rfl) rs).content,
      bytesAt_of_copies h.hasInstalled.copies_file]
    exact congrArg _ (if_pos rfl).symm
  · rw [bytesFor_of_not_heldBy hheld, List.append_nil]
    unfold Files.contentAt
    rw [h.entries rs hheld]

theorem logsOnly (h : base.LogsBy level sink? s) (rs : List Record) :
    s.LogsOnly level sink? rs (rs.foldl emit s) where
  messages := by
    rw [foldl_emit_messages, lines_of_copies h.hasInstalled.copies_console]
  content := h.content rs
  entries _ hl := h.entries rs hl
  handlers := by
    rw [h.others]
    exact (h.foldl_emit rs).handlers
  handled := (h.foldl_emit rs).emit_eq
  once := (h.foldl_emit rs).hasInstalled.copies_le_one

end LogsBy

theorem sinkFor_of_opened {place : Place} {threshold : Level} {l : Location} {opened : Files}
    (hplace : settings.file = some place) (hopen : s.openLog place = .ok (l, opened))
    (hlevel : Level.find settings.fileLevel = .ok threshold) :
    s.sinkFor? settings = some ⟨l, threshold⟩ := by
  have hlocate := (Files.openAppend_eq_ok.mp (openLog_eq_ok.mp hopen).2).1
  unfold sinkFor?
  rw [hplace, hlevel]
  change (s.files.locateFull place).toOption.bind _ = _
  rw [hlocate]
  rfl

/-- The content of files does not change when a log file is opened. -/
theorem contentAt_opened {place : Place} {l : Location} {opened : Files}
    (hopen : s.openLog place = .ok (l, opened)) (m : Location) :
    opened.contentAt m = s.files.contentAt m := by
  have happend := (openLog_eq_ok.mp hopen).2
  by_cases hm : m = l
  · rw [hm]
    exact (Files.openAppend_holdsFile happend).2
  · have hgrown : Files.Grown (· = l) s.files opened := Files.Grown.openAppend rfl happend
    unfold Files.contentAt
    rw [hgrown.entries m hm]

/-- What a setup has done before it logs its own record. -/
structure SetUp (s : Session) (settings : LogSettings) (quiet : Bool) (level : Level)
    (t : Session) : Prop where
  console : consoleLevel settings quiet = .ok level
  asked : (s.sinkFor? settings).isSome = settings.file.isSome
  logsBy : s.LogsBy level (s.sinkFor? settings) t
  messages : t.messages = s.messages
  content : ∀ l, t.files.contentAt l = s.files.contentAt l

theorem setUp_without_file (hconsole : consoleLevel settings quiet = .ok level)
    (hnone : settings.file = none) : s.SetUp settings quiet level (s.withConsole level) := by
  have hsink : s.sinkFor? settings = none := by
    unfold sinkFor?
    rw [hnone]
    rfl
  refine ⟨hconsole, ?_, ?_, rfl, fun _ => rfl⟩
  · rw [hsink, hnone]
    rfl
  · rw [hsink]
    exact ⟨rfl, rfl, nofun, .withConsole (.refl _ _) level⟩

theorem setUp_with_file {threshold : Level} {place : Place} {l : Location} {opened : Files}
    (hconsole : consoleLevel settings quiet = .ok level) (hplace : settings.file = some place)
    (hopen : s.openLog place = .ok (l, opened))
    (hlevel : Level.find settings.fileLevel = .ok threshold) :
    s.SetUp settings quiet level (s.withFile level ⟨l, threshold⟩ opened) := by
  have hsink := sinkFor_of_opened hplace hopen hlevel
  have happend := (openLog_eq_ok.mp hopen).2
  refine ⟨hconsole, ?_, ?_, rfl, contentAt_opened hopen⟩
  · rw [hsink, hplace]
    rfl
  · rw [hsink]
    have hheld : HeldBy (some ⟨l, threshold⟩) l := ⟨_, rfl, rfl⟩
    refine ⟨rfl, rfl, ?_, .withFile (.openAppend hheld happend) level hheld ?_⟩
    · intro sink hsame
      obtain rfl := Option.some.inj hsame
      exact (Files.openAppend_holdsFile happend).1
    · exact (Files.openAppend_eq_ok.mp happend).2.1

theorem exists_setUp (h : s.configure settings quiet = (.ok (), t)) :
    ∃ level u, s.SetUp settings quiet level u ∧
      t = u.emit (.initialized (settings.file.map Place.toText) settings.consoleLevel) := by
  cases hfile : settings.file with
  | none =>
      obtain ⟨level, hconsole, ht⟩ := exists_withConsole_of_configure h hfile
      exact ⟨level, _, setUp_without_file hconsole hfile, ht⟩
  | some place =>
      obtain ⟨level, threshold, l, opened, hconsole, hopen, hlevel, ht⟩ :=
        exists_withFile_of_configure h hfile
      exact ⟨level, _, setUp_with_file hconsole hfile hopen hlevel, ht⟩

/-- What periods leave of a session. -/
structure Keeps (s : Session) (ps : List Period) (t : Session) : Prop where
  clock : t.clock = s.clock
  others : t.others = s.others
  grown : Files.Grown (fun _ => True) s.files t.files
  messages : t.messages = s.messages ++ ps.flatMap (Period.lines s)
  content : ∀ l, t.files.contentAt l = s.files.contentAt l ++ ps.flatMap (Period.bytesAt s l)

namespace Keeps

variable {p : Period} {ps qs : List Period}

/-- Log files that grow are not found anywhere else. -/
theorem sinkFor (h : s.Keeps ps t) (settings : LogSettings) :
    t.sinkFor? settings = s.sinkFor? settings := by
  have hlocate : ∀ place, (t.files.locateFull place).toOption =
      (s.files.locateFull place).toOption := by
    intro place
    apply Option.ext
    intro l
    rw [toOption_eq_some, toOption_eq_some]
    exact h.grown.locateFull_eq_ok place l
  unfold sinkFor?
  simp only [hlocate]

theorem nil (s : Session) : s.Keeps [] s :=
  ⟨rfl, rfl, .refl _ _, (List.append_nil _).symm, fun _ => (List.append_nil _).symm⟩

theorem append (h : s.Keeps ps t) (h' : t.Keeps qs u) : s.Keeps (ps ++ qs) u where
  clock := h'.clock.trans h.clock
  others := h'.others.trans h.others
  grown := h.grown.trans h'.grown
  messages := by
    have hlines : Period.lines t = Period.lines s := by
      funext p
      unfold Period.lines
      rw [h.clock]
    rw [h'.messages, h.messages, hlines, List.append_assoc, List.flatMap_append]
  content l := by
    have hbytes : Period.bytesAt t l = Period.bytesAt s l := by
      funext p
      unfold Period.bytesAt bytesFor fileBytes
      rw [h.sinkFor, h.clock]
    rw [h'.content, h.content, hbytes, List.append_assoc, List.flatMap_append]

/-- Of a period that begins with a setup, the setup and the records are kept account of. -/
theorem period (h : s.configure p.settings p.quiet = (.ok (), t)) :
    s.Keeps [p] (p.records.foldl emit t) := by
  obtain ⟨level, u, hsetUp, rfl⟩ := exists_setUp h
  have hafter := hsetUp.logsBy.foldl_emit p.events
  have hlogs := hsetUp.logsBy.logsOnly p.events
  refine ⟨hafter.clock, hafter.others, ?_, ?_, fun l => ?_⟩
  · exact hafter.reached.grown.imp fun _ _ => trivial
  · have hlines : Period.lines s p =
        (p.events.filter fun r => level.passes r.level).map (Record.line u.clock.stamp) := by
      unfold Period.lines
      rw [hsetUp.console, hsetUp.logsBy.clock]
    rw [List.flatMap_singleton, hlines, ← hsetUp.messages]
    exact hlogs.messages
  · have hbytes : Period.bytesAt s l p = u.bytesFor (s.sinkFor? p.settings) l p.events := by
      unfold Period.bytesAt bytesFor fileBytes
      rw [hsetUp.logsBy.clock]
    rw [List.flatMap_singleton, hbytes, ← hsetUp.content l]
    exact hlogs.content l

theorem of_goesThrough (h : s.GoesThrough ps t) : s.Keeps ps t := by
  induction h with
  | nil s => exact .nil s
  | cons hsetUp _ ih => exact (period hsetUp).append ih

end Keeps

theorem GoesThrough.append {ps qs : List Period} (h : s.GoesThrough (ps ++ qs) u) :
    ∃ t, s.GoesThrough ps t ∧ t.GoesThrough qs u := by
  induction ps generalizing s with
  | nil => exact ⟨s, .nil s, h⟩
  | cons p ps ih =>
      cases h with
      | cons hsetUp hrest =>
          obtain ⟨t, hps, hqs⟩ := ih hrest
          exact ⟨t, .cons hsetUp hps, hqs⟩

end Session

/-- After any setups that succeed, the marked handlers are those of the last one, whatever handlers
there were at first. Records go to them only, by the levels of that setup only and once at most, and
only its log file can change. What is in the files and in the messages by then has been written by
each setup in its time, behind what was there before. -/
theorem reconfiguration_replaces_handlers {s t : Session} {earlier : List Period}
    {settings : LogSettings} {quiet : Bool}
    (h : s.GoesThrough (earlier ++ [⟨settings, quiet, []⟩]) t) :
    ∃ level, Session.consoleLevel settings quiet = .ok level ∧
      (s.sinkFor? settings).isSome = settings.file.isSome ∧
      t.handlers = s.others ++ Handler.installed level (s.sinkFor? settings) ∧
      (∀ later, t.LogsOnly level (s.sinkFor? settings) later (later.foldl Session.emit t)) ∧
      s.Keeps (earlier ++ [⟨settings, quiet, []⟩]) t := by
  obtain ⟨u, hearlier, hlast⟩ := h.append
  cases hlast with
  | cons hsetUp hrest =>
      cases hrest
      obtain ⟨level, v, hlogs, rfl⟩ := Session.exists_setUp hsetUp
      have hkeeps := Session.Keeps.of_goesThrough hearlier
      have hinForce := hlogs.logsBy.foldl_emit
        [.initialized (settings.file.map Place.toText) settings.consoleLevel]
      have hsink := hkeeps.sinkFor settings
      refine ⟨level, hlogs.console, ?_, ?_, ?_, .of_goesThrough h⟩
      · rw [← hsink]
        exact hlogs.asked
      · rw [← hsink, ← hkeeps.others]
        exact hinForce.handlers
      · intro later
        rw [← hsink]
        exact hinForce.logsOnly later

def loggingTo (name : String) : LogSettings := { file := some ⟨"", [name]⟩ }

/-- Logging to one file, then to another one. -/
def rotatingPeriods : List Period :=
  [⟨loggingTo "p.log", false, [.loaded "first" 1]⟩,
    ⟨loggingTo "q.log", true, [.encoded "second" 2 9]⟩]

def rotatingSession : Session := .start ⟨"T", "T"⟩ ⟨["w"], []⟩ ""

/-- A session with two handlers of earlier setups on both sides of a foreign one. -/
def crowdedSession : Session :=
  { rotatingSession with
    handlers := [.marked .console .debug, .foreign 0, .marked .console .debug] }

/-- The first file under its full name. -/
def backAgain : LogSettings := { file := some ⟨"/", ["w", "p.log"]⟩ }

/-- Back at the first file, nothing is written to the other one any more. -/
theorem rotation_replaces_handlers :
    ∃ t, crowdedSession.GoesThrough (rotatingPeriods ++ [⟨backAgain, true, []⟩]) t ∧
      ∃ level, Session.consoleLevel backAgain true = .ok level ∧
        (crowdedSession.sinkFor? backAgain).isSome = true ∧
        t.handlers =
          crowdedSession.others ++ Handler.installed level (crowdedSession.sinkFor? backAgain) ∧
        (∀ later, t.LogsOnly level (crowdedSession.sinkFor? backAgain) later
          (later.foldl Session.emit t)) ∧
        crowdedSession.Keeps (rotatingPeriods ++ [⟨backAgain, true, []⟩]) t := by
  have hrun : crowdedSession.GoesThrough (rotatingPeriods ++ [⟨backAgain, true, []⟩]) _ :=
    .cons (Prod.ext rfl rfl) (.cons (Prod.ext rfl rfl) (.cons (Prod.ext rfl rfl) (.nil _)))
  exact ⟨_, hrun, reconfiguration_replaces_handlers hrun⟩

/-- Both names of a file lead to one location. -/
example : crowdedSession.sinkFor? (loggingTo "p.log") = crowdedSession.sinkFor? backAgain := rfl

end VectorPath
