import VectorPath.Proofs.Logging.Handlers

/-!
# Setting up logging

There are five ways for logging to be set up or not. Each of them is one session afterwards, so
whatever setting up logging does can be told from the way that it goes.
-/

namespace VectorPath.Session

theorem openLog_eq_ok {s : Session} {place : Place} {opened : Location × Files} :
    s.openLog place = .ok opened ↔
      place.hasNul = false ∧ s.files.openAppend place = .ok opened := by
  unfold openLog
  cases place.hasNul with
  | true => exact ⟨nofun, nofun⟩
  | false => cases s.files.openAppend place <;> simp [mishap]

/-- The handlers of a setup are removed and others take their place. -/
def withHandlers (s : Session) (handlers : List Handler) : Session :=
  { s with handlers := s.others ++ handlers }

def withConsole (s : Session) (console : Level) : Session :=
  s.withHandlers (Handler.installed console none)

/-- A log file has been opened besides. -/
def withFile (s : Session) (console : Level) (sink : FileSink) (files : Files) : Session :=
  { s.withHandlers (Handler.installed console (some sink)) with files }

section Installed

variable (s : Session) (handlers : List Handler)

theorem filter_isMarked_others : s.others.filter Handler.isMarked = [] := by
  unfold others
  rw [List.filter_filter, List.filter_eq_nil_iff]
  intro h _
  cases h.isMarked <;> decide

theorem filter_isMarked_installed (console : Level) (sink? : Option FileSink) :
    (Handler.installed console sink?).filter Handler.isMarked =
      Handler.installed console sink? := by
  cases sink? <;> rfl

theorem hasInstalled_withHandlers (console : Level) (sink? : Option FileSink) :
    (s.withHandlers (Handler.installed console sink?)).HasInstalled console sink? := by
  unfold HasInstalled withHandlers
  rw [List.filter_append, filter_isMarked_others, filter_isMarked_installed, List.nil_append]

theorem others_withHandlers (h : handlers.filter (!·.isMarked) = []) :
    (s.withHandlers handlers).others = s.others := by
  change (s.others ++ handlers).filter _ = s.others
  rw [List.filter_append, h, List.append_nil]
  unfold others
  rw [List.filter_filter]
  simp only [Bool.and_self]

theorem filter_not_isMarked_installed (console : Level) (sink? : Option FileSink) :
    (Handler.installed console sink?).filter (!·.isMarked) = [] := by
  cases sink? <;> rfl

/-- A foreign handler is none for a file that is seen. -/
theorem marked_not_mem_others (outlet : Outlet) (threshold : Level) :
    Handler.marked outlet threshold ∉ s.others := by
  intro hmem
  have hmark := (List.mem_filter.mp hmem).2
  cases hmark

end Installed

/-- What setting up logging comes to. -/
inductive Configured (s : Session) (settings : LogSettings) (quiet : Bool) :
    Outcome Unit → Session → Prop
  | unknownConsole {m : LevelMishap} : consoleLevel settings quiet = .error m →
      Configured s settings quiet (mishap (.level m)) (s.withHandlers [])
  | unopened {console : Level} {place : Place} {f : Failure} :
      consoleLevel settings quiet = .ok console → settings.file = some place →
      s.openLog place = .error f →
      Configured s settings quiet (.error f) (s.withConsole console)
  | unknownFileLevel {console : Level} {place : Place} {l : Location} {opened : Files}
      {m : LevelMishap} : consoleLevel settings quiet = .ok console →
      settings.file = some place → s.openLog place = .ok (l, opened) →
      Level.find settings.fileLevel = .error m →
      Configured s settings quiet (mishap (.level m)) { s.withConsole console with files := opened }
  | consoleOnly {console : Level} : consoleLevel settings quiet = .ok console →
      settings.file = none →
      Configured s settings quiet (.ok ())
        ((s.withConsole console).emit (.initialized none settings.consoleLevel))
  | withFile {console threshold : Level} {place : Place} {l : Location} {opened : Files} :
      consoleLevel settings quiet = .ok console → settings.file = some place →
      s.openLog place = .ok (l, opened) → Level.find settings.fileLevel = .ok threshold →
      Configured s settings quiet (.ok ())
        ((s.withFile console ⟨l, threshold⟩ opened).emit
          (.initialized (some place.toText) settings.consoleLevel))

theorem removeMarked_handlers (s : Session) :
    { s with handlers := Handler.removeMarked s.handlers } = s.withHandlers [] := by
  unfold withHandlers others
  rw [Handler.removeMarked_eq, List.append_nil]

theorem install_console (s : Session) (console : Level) :
    (s.withHandlers []).install .console console = s.withConsole console := by
  unfold install withConsole withHandlers
  rw [List.append_nil]
  rfl

theorem install_file (s : Session) (console : Level) (sink : FileSink) (opened : Files) :
    { s.withConsole console with files := opened }.install (.file sink.location) sink.threshold =
      s.withFile console sink opened := by
  unfold install withFile withConsole withHandlers
  dsimp only
  rw [List.append_assoc]
  rfl

theorem configured (s : Session) (settings : LogSettings) (quiet : Bool) :
    Configured s settings quiet (s.configure settings quiet).1 (s.configure settings quiet).2 := by
  unfold configure configureAs
  rw [removeMarked_handlers]
  cases hconsole : consoleLevel settings quiet with
  | error m => exact .unknownConsole hconsole
  | ok console =>
      dsimp only
      rw [install_console]
      unfold addFile
      cases hfile : settings.file with
      | none => exact .consoleOnly hconsole hfile
      | some place =>
          -- Opening a file does not look at the handlers.
          have hsame : (s.withConsole console).openLog place = s.openLog place := rfl
          dsimp only
          rw [hsame]
          cases hopen : s.openLog place with
          | error f => exact .unopened hconsole hfile hopen
          | ok found =>
              obtain ⟨l, opened⟩ := found
              cases hlevel : Level.find settings.fileLevel with
              | error m => exact .unknownFileLevel hconsole hfile hopen hlevel
              | ok threshold =>
                  have hway := Configured.withFile hconsole hfile hopen hlevel
                  rw [← install_file] at hway
                  exact hway

theorem configure_input (s : Session) (settings : LogSettings) (quiet : Bool) :
    (s.configure settings quiet).2.input = s.input := by
  have hway := s.configured settings quiet
  generalize s.configure settings quiet = result at hway ⊢
  obtain ⟨outcome, t⟩ := result
  cases hway with
  | unknownConsole _ => rfl
  | unopened _ _ _ => rfl
  | unknownFileLevel _ _ _ _ => rfl
  | consoleOnly _ _ => exact emit_input _ _
  | withFile _ _ _ _ => exact emit_input _ _

/-- Logging to a file has been set up in one way only. -/
theorem exists_withFile_of_configure {s t : Session} {settings : LogSettings} {quiet : Bool}
    {place : Place} (h : s.configure settings quiet = (.ok (), t))
    (hplace : settings.file = some place) :
    ∃ console threshold l opened, consoleLevel settings quiet = .ok console ∧
      s.openLog place = .ok (l, opened) ∧ Level.find settings.fileLevel = .ok threshold ∧
      t = (s.withFile console ⟨l, threshold⟩ opened).emit
        (.initialized (some place.toText) settings.consoleLevel) := by
  have hway := s.configured settings quiet
  rw [h] at hway
  cases hway with
  | consoleOnly _ hfile =>
      rw [hplace] at hfile
      cases hfile
  | withFile hconsole hfile hopen hlevel =>
      rw [hplace] at hfile
      obtain rfl := Option.some.inj hfile
      exact ⟨_, _, _, _, hconsole, hopen, hlevel, rfl⟩

/-- Logging without a file has been set up in one way only. -/
theorem exists_withConsole_of_configure {s t : Session} {settings : LogSettings} {quiet : Bool}
    (h : s.configure settings quiet = (.ok (), t)) (hnone : settings.file = none) :
    ∃ console, consoleLevel settings quiet = .ok console ∧
      t = (s.withConsole console).emit (.initialized none settings.consoleLevel) := by
  have hway := s.configured settings quiet
  rw [h] at hway
  cases hway with
  | consoleOnly hconsole _ => exact ⟨_, hconsole, rfl⟩
  | withFile _ hfile _ _ =>
      rw [hnone] at hfile
      cases hfile

end VectorPath.Session
