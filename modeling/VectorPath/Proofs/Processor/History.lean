import VectorPath.Proofs.Files.Growth
import VectorPath.Proofs.Logging.Emission
import VectorPath.Proofs.Logging.Setup
import VectorPath.Proofs.Processor.Calls

/-!
# What a processor answers after any history

Every processor that is made and every call leaves the session changed: other handlers, more
messages and log files that are created and grow. None of this comes back in an answer. The one
trace that a history can leave is a log file on the way to a document, as if it were a directory:
the system refuses such a place with another reason once the file is there.
-/

namespace VectorPath

/-- What happens to a session: a processor is made, or some processor answers a request. -/
inductive Action
  | start (settings : Settings) (quiet : Bool)
  | call (p : Processor) (r : Request)

/-- The log file that an action asks for. -/
def Action.log? : Action → Option Place
  | .start settings _ => settings.logging.file
  | .call .. => none

/-- The locations where actions would open their log files. -/
def Files.LoggedBy (files : Files) (history : List Action) (l : Location) : Prop :=
  ∃ a ∈ history, ∃ log, a.log? = some log ∧ log.hasNul = false ∧
    ∃ opened, files.openAppend log = .ok (l, opened)

theorem Processor.start_session (settings : Settings) (quiet : Bool) (s : Session) :
    (Processor.start settings quiet s).2 = (s.configure settings.logging quiet).2 := by
  unfold Processor.start
  split
  next hconfigure => rw [hconfigure]
  next hconfigure => rw [hconfigure]

namespace Session

def act [Depth] (s : Session) : Action → Session
  | .start settings quiet => (Processor.start settings quiet s).2
  | .call p r => (p.answer s r).session

/-- A session after actions one after the other. -/
def after [Depth] (s : Session) (history : List Action) : Session := history.foldl act s

/-- A session in which nothing but log files has changed. Handlers write to no other files. -/
structure Reached (files : Files) (logged : Location → Prop) (s : Session) : Prop where
  grown : Files.Grown logged files s.files
  handlers : ∀ l threshold, Handler.marked (.file l) threshold ∈ s.handlers →
    logged l ∧ files.isDirectory l = false

namespace Reached

variable {files : Files} {logged : Location → Prop} {s : Session}

theorem start (clock : Clock) (input : String) :
    Reached files logged (.start clock files input) :=
  ⟨Files.Grown.refl logged files, nofun⟩

theorem handle (h : Reached files logged s) (r : Record) {handler : Handler}
    (hhandler : ∀ l threshold, .marked (.file l) threshold = handler →
      logged l ∧ files.isDirectory l = false) : Reached files logged (s.handle r handler) := by
  cases handler with
  | foreign => exact h
  | marked outlet threshold =>
      rw [handle_marked]
      split
      · cases outlet with
        | console => exact ⟨h.grown, h.handlers⟩
        | file l =>
            obtain ⟨hlogged, hfile⟩ := hhandler l threshold rfl
            rw [← h.grown.directories] at hfile
            exact ⟨h.grown.trans (Files.Grown.append hlogged hfile _), h.handlers⟩
      · exact h

theorem foldl_handle (h : Reached files logged s) (r : Record) {handlers : List Handler}
    (hhandlers : ∀ l threshold, .marked (.file l) threshold ∈ handlers →
      logged l ∧ files.isDirectory l = false) :
    Reached files logged (handlers.foldl (Session.handle r) s) := by
  induction handlers generalizing s with
  | nil => exact h
  | cons handler rest ih =>
      apply ih
      · exact h.handle r fun l threshold heq => hhandlers l threshold (heq ▸ List.mem_cons_self ..)
      · exact fun l threshold hmem => hhandlers l threshold (List.mem_cons_of_mem handler hmem)

theorem emit (h : Reached files logged s) (r : Record) : Reached files logged (s.emit r) := by
  apply h.foldl_handle
  intro l threshold
  unfold inForce
  split
  · simp
  · exact h.handlers l threshold

theorem foldl_emit (h : Reached files logged s) (rs : List Record) :
    Reached files logged (rs.foldl Session.emit s) := by
  induction rs generalizing s with
  | nil => exact h
  | cons r rs ih => exact ih (h.emit r)

theorem withoutHandlers (h : Files.Grown logged files s.files) :
    Reached files logged (s.withHandlers []) := by
  refine ⟨h, fun l threshold hmem => ?_⟩
  rw [withHandlers, List.append_nil] at hmem
  exact absurd hmem (s.marked_not_mem_others _ _)

theorem withConsole (h : Files.Grown logged files s.files) (console : Level) :
    Reached files logged (s.withConsole console) := by
  refine ⟨h, fun l threshold hmem => ?_⟩
  rcases List.mem_append.mp hmem with hother | hown
  · exact absurd hother (s.marked_not_mem_others _ _)
  · simp [Handler.installed] at hown

theorem withFile {opened : Files} {sink : FileSink} (h : Files.Grown logged files opened)
    (console : Level) (hsink : logged sink.location)
    (hdirectory : files.isDirectory sink.location = false) :
    Reached files logged (s.withFile console sink opened) := by
  refine ⟨h, fun l threshold hmem => ?_⟩
  rcases List.mem_append.mp hmem with hother | hown
  · exact absurd hother (s.marked_not_mem_others _ _)
  · obtain ⟨rfl, -⟩ : l = sink.location ∧ threshold = sink.threshold := by
      simpa [Handler.installed] using hown
    exact ⟨hsink, hdirectory⟩

/-- A log file that can be opened now could have been opened before. -/
theorem openLog {place : Place} {l : Location} {opened : Files}
    (h : Reached files logged s)
    (hlog : ∀ l opened, place.hasNul = false →
      files.openAppend place = .ok (l, opened) → logged l)
    (hopen : s.openLog place = .ok (l, opened)) :
    logged l ∧ files.isDirectory l = false ∧ Files.Grown logged files opened := by
  obtain ⟨hnul, happend⟩ := openLog_eq_ok.mp hopen
  obtain ⟨hlocate, hdirectory, -⟩ := Files.openAppend_eq_ok.mp happend
  rw [h.grown.locateFull_eq_ok] at hlocate
  rw [h.grown.directories] at hdirectory
  have hlogged : logged l := hlog l _ hnul (Files.openAppend_of_locateFull hlocate hdirectory)
  exact ⟨hlogged, hdirectory, h.grown.trans (Files.Grown.openAppend hlogged happend)⟩

/-- Setting up logging opens no file but the log file. -/
theorem configure (h : Reached files logged s) (settings : LogSettings) (quiet : Bool)
    (hlog : ∀ log, settings.file = some log → ∀ l opened, log.hasNul = false →
      files.openAppend log = .ok (l, opened) → logged l) :
    Reached files logged (s.configure settings quiet).2 := by
  have hway := s.configured settings quiet
  generalize s.configure settings quiet = configured at hway ⊢
  obtain ⟨outcome, t⟩ := configured
  cases hway with
  | unknownConsole _ => exact withoutHandlers h.grown
  | unopened _ _ _ => exact withConsole h.grown _
  | unknownFileLevel _ hfile hopen _ =>
      have hopened := h.openLog (hlog _ hfile) hopen
      exact ⟨hopened.2.2, (withConsole h.grown _).handlers⟩
  | consoleOnly _ _ => exact (withConsole h.grown _).emit _
  | withFile _ hfile hopen _ =>
      obtain ⟨hlogged, hdirectory, hgrown⟩ := h.openLog (hlog _ hfile) hopen
      exact (withFile hgrown _ hlogged hdirectory).emit _

theorem act [Depth] {a : Action} (h : Reached files logged s)
    (ha : ∀ l, files.LoggedBy [a] l → logged l) :
    Reached files logged (s.act a) := by
  cases a with
  | start settings quiet =>
      change Reached files logged (Processor.start settings quiet s).2
      rw [Processor.start_session]
      apply h.configure
      intro log hlog l opened hnul hopen
      exact ha l ⟨_, List.mem_singleton_self _, log, hlog, hnul, opened, hopen⟩
  | call p r =>
      change Reached files logged (p.answer s r).session
      rw [Processor.answer_session]
      apply foldl_emit
      cases r <;> exact ⟨h.grown, h.handlers⟩

theorem after [Depth] {history : List Action} (h : Reached files logged s)
    (hhistory : ∀ l, files.LoggedBy history l → logged l) :
    Reached files logged (s.after history) := by
  induction history generalizing s with
  | nil => exact h
  | cons a rest ih =>
      apply ih (h.act _)
      · rintro l ⟨b, hb, hlog⟩
        exact hhistory l ⟨b, List.mem_cons_of_mem a hb, hlog⟩
      · rintro l ⟨b, hb, hlog⟩
        obtain rfl := List.mem_singleton.mp hb
        exact hhistory l ⟨b, List.mem_cons_self .., hlog⟩

theorem after_start [Depth] (clock : Clock) (input : String) (history : List Action) :
    Reached files (files.LoggedBy history)
      ((Session.start clock files input).after history) := by
  apply (Reached.start clock input).after
  intro l hl
  exact hl

end Reached
end Session

namespace Request

/-- The place whose file a request reads. Standard input is no file. -/
def place? : Request → Option Place
  | .items .. => none
  | .document place _ => if place = Place.standardInput then none else some place
  | .glyph place _ => some place

/-- Whether a request reads the file at a location. -/
def Reads (files : Files) (r : Request) (l : Location) : Prop :=
  ∃ place, r.place? = some place ∧ files.locate place = .ok l

end Request

/-- The outcome of a request before and after log files have grown: the same, unless it is a missing
document in whose way a log file has come to stand. -/
inductive Undisturbed {α : Type} (files : Files) (logged : Location → Prop) :
    Request → Outcome α → Outcome α → Prop
  | same (r : Request) (o : Outcome α) : Undisturbed files logged r o o
  | blocked {place : Place} {input : String} : files.BlockedBy logged place →
      Undisturbed files logged (.document place input)
        (fault (.document place.toText Refusal.notFound.reason))
        (fault (.document place.toText Refusal.notDirectory.reason))

namespace Undisturbed

variable {α β : Type} {files : Files} {logged logged' : Location → Prop} {r : Request}
  {o o' o'' : Outcome α}

/-- Of two outcomes after different log files, one is as if it had come before the other. -/
theorem or_of_common (h : Undisturbed files logged r o o')
    (h' : Undisturbed files logged' r o o'') :
    Undisturbed files logged' r o' o'' ∨ Undisturbed files logged r o'' o' := by
  cases h with
  | same => exact .inl h'
  | blocked hblocked =>
      cases h' with
      | same => exact .inr (.blocked hblocked)
      | blocked => exact .inl (.same _ _)

/-- What goes on after a result does not see how an outcome failed. -/
theorem lift (h : Undisturbed files logged r o o') (g : Outcome α → Outcome β)
    (hg : ∀ f, g (.error f) = .error f) : Undisturbed files logged r (g o) (g o') := by
  cases h with
  | same => exact .same r (g o)
  | blocked hblocked =>
      unfold fault
      rw [hg, hg]
      exact .blocked hblocked

theorem toOption (h : Undisturbed files logged r o o') : o.toOption = o'.toOption := by
  cases h <;> rfl

end Undisturbed

section Grown

variable {logged : Location → Prop} {files grown : Files}

theorem Document.read_grown [Depth] (h : Files.Grown logged files grown) (place : Place)
    (input : String) (hread : ∀ l, logged l → ¬ Request.Reads files (.document place input) l) :
    Undisturbed files logged (.document place input) (Document.read files input place)
      (Document.read grown input place) := by
  unfold Document.read
  split_ifs with hinput
  · exact .same _ _
  · apply Undisturbed.lift _ fun text => text >>= Document.ofText place.toText
    · intro f
      rfl
    · have hbytes := h.readBytes fun l hl hlocate =>
        hread l hl ⟨place, if_neg hinput, hlocate⟩
      unfold Document.textOf
      split_ifs
      · exact .same _ _
      · generalize files.readBytes place = o at hbytes ⊢
        generalize grown.readBytes place = o' at hbytes ⊢
        cases hbytes with
        | same => exact .same _ _
        | blocked hblocked => exact .blocked hblocked

/-- A font that is missing is missing for one reason only. -/
theorem FontLibrary.load_grown (L : FontLibrary) (h : Files.Grown logged files grown)
    {place : Place} (hread : ∀ l, logged l → files.locate place ≠ .ok l) :
    L.load grown place = L.load files place := by
  have hfind := h.find hread
  unfold FontLibrary.load
  generalize files.find place = o at hfind ⊢
  generalize grown.find place = o' at hfind ⊢
  cases hfind with
  | same => rfl
  | blocked => rfl

theorem OutlineReader.outlineAt_grown [Depth] (h : Files.Grown logged files grown) {place : Place}
    (name : String) (hread : ∀ l, logged l → files.locate place ≠ .ok l) :
    OutlineReader.outlineAt grown place name = OutlineReader.outlineAt files place name := by
  unfold OutlineReader.outlineAt OutlineReader.load OutlineReader.start
  rw [FontLibrary.load_grown Font.library h hread]

theorem Request.written_grown [Depth] (h : Files.Grown logged files grown)
    (writing : WritingSettings) (r : Request) (hread : ∀ l, logged l → ¬ r.Reads files l) :
    Undisturbed files logged r (r.written writing files) (r.written writing grown) := by
  cases r with
  | items vs source => exact .same _ _
  | document place input =>
      apply (Document.read_grown h place input hread).lift (writtenLoaded writing)
      intro f
      rfl
  | glyph place name =>
      have houtline := OutlineReader.outlineAt_grown h name fun l hl hlocate =>
        hread l hl ⟨place, rfl, hlocate⟩
      change Undisturbed files logged _ (writtenLoaded writing _)
        (writtenLoaded writing (OutlineReader.outlineAt grown place name))
      rw [houtline]
      exact .same _ _

theorem Session.Reached.answer [Depth] {s : Session} (h : s.Reached files logged) (p : Processor)
    {r : Request} (hread : ∀ l, logged l → ¬ r.Reads files l) :
    Undisturbed files logged r ((r.written p.writing files).map Prod.snd)
      (p.answer s r).outcome := by
  rw [Processor.answer_outcome]
  apply (Request.written_grown h.grown p.writing r hread).lift (Except.map Prod.snd)
  intro f
  rfl

end Grown

/-- Whatever processors have been made and asked before, with whatever log files, two processors
with the same writing settings answer a request alike, if no log file is what the request reads.
Only a log file of one run in the way of a missing document may change the reason there. -/
theorem same_outcome_after_any_history [Depth] (files : Files) (clock clock' : Clock)
    (input input' : String) (history history' : List Action) {p p' : Processor}
    (hwriting : p.writing = p'.writing) (r : Request)
    (hread : ∀ l, files.LoggedBy (history ++ history') l → ¬ r.Reads files l) :
    let o := (p.answer ((Session.start clock files input).after history) r).outcome
    let o' := (p'.answer ((Session.start clock' files input').after history') r).outcome
    Undisturbed files (files.LoggedBy history') r o o' ∨
      Undisturbed files (files.LoggedBy history) r o' o := by
  have hbefore : ∀ l, files.LoggedBy history l → ¬ r.Reads files l := by
    rintro l ⟨a, ha, hlog⟩
    exact hread l ⟨a, List.mem_append_left history' ha, hlog⟩
  have hafter : ∀ l, files.LoggedBy history' l → ¬ r.Reads files l := by
    rintro l ⟨a, ha, hlog⟩
    exact hread l ⟨a, List.mem_append_right history ha, hlog⟩
  -- Both answers are compared with what the request comes to on the files as they were.
  have hanswer := (Session.Reached.after_start clock input history).answer p hbefore
  rw [hwriting] at hanswer
  exact hanswer.or_of_common
    ((Session.Reached.after_start clock' input' history').answer p' hafter)

/-- A processor is made that logs to a file; some processor is given an item that is no command. -/
def loggingHistory (log : Place) : List Action :=
  [.start ⟨{}, { file := some log }⟩ true, .call ⟨{}, {}⟩ (.items [.null] "null")]

theorem eq_of_loggedBy_loggingHistory {files : Files} {log : Place} {l : Location}
    (h : files.LoggedBy (loggingHistory log) l) : files.locateFull log = .ok l := by
  obtain ⟨a, ha, place, hplace, -, opened, hopen⟩ := h
  rcases List.mem_cons.mp ha with rfl | ha
  · obtain rfl := Option.some.inj hplace
    exact (Files.openAppend_eq_ok.mp hopen).1
  · obtain rfl := List.mem_singleton.mp ha
    cases hplace

def seriesPlace : Place := ⟨"", ["series.json"]⟩

open scoped Depth in
/-- A document is read alike whether there has been a log file or not. -/
theorem series_same_outcome :
    let files : Files := ⟨["w"], [(["w", "series.json"], .bytes (Text.encodeUtf8 "[7]"))]⟩
    let history := loggingHistory ⟨"", ["p.log"]⟩
    let r := Request.document seriesPlace ""
    let o := (Processor.answer ⟨{}, {}⟩ ((Session.start ⟨"T", "T"⟩ files "").after []) r).outcome
    let o' :=
      (Processor.answer ⟨{}, {}⟩ ((Session.start ⟨"T", "T"⟩ files "").after history) r).outcome
    Undisturbed files (files.LoggedBy history) r o o' ∨
      Undisturbed files (files.LoggedBy []) r o' o := by
  intro files history r
  apply same_outcome_after_any_history files _ _ "" "" [] history rfl
  rintro l hl ⟨place, hplace, hlocate⟩
  obtain rfl := Option.some.inj hplace
  have hlog : ["w", "p.log"] = l := Except.ok.inj (eq_of_loggedBy_loggingHistory hl)
  have hdocument : ["w", "series.json"] = l := Except.ok.inj hlocate
  rw [← hlog] at hdocument
  revert hdocument
  decide

/-- A document in a log file, as if it were a directory. -/
def blockedPlace : Place := ⟨"", ["l.log", "d.json"]⟩

open scoped Depth in
/-- A place in a missing directory is refused for another reason once a log file has its name. -/
theorem log_file_changes_refusal :
    ¬ ∀ (files : Files) (clock clock' : Clock) (input input' : String)
      (history history' : List Action) (p p' : Processor), p.writing = p'.writing →
      ∀ r : Request, (∀ l, files.LoggedBy (history ++ history') l → ¬ r.Reads files l) →
        (p.answer ((Session.start clock files input).after history) r).outcome =
          (p'.answer ((Session.start clock' files input').after history') r).outcome := by
  intro h
  have hunread : ∀ l, ¬ Request.Reads ⟨["w"], []⟩ (.document blockedPlace "") l := by
    rintro l ⟨place, hplace, hlocate⟩
    obtain rfl := Option.some.inj hplace
    cases hlocate
  have hsame := h ⟨["w"], []⟩ ⟨"T", "T"⟩ ⟨"T", "T"⟩ "" "" [] (loggingHistory ⟨"", ["l.log"]⟩)
    ⟨{}, {}⟩ ⟨{}, {}⟩ rfl (.document blockedPlace "") fun l _ => hunread l
  have hreasons : (fault (.document blockedPlace.toText Refusal.notFound.reason) : Outcome String) =
      fault (.document blockedPlace.toText Refusal.notDirectory.reason) := hsame
  have hreason : Refusal.notFound.reason = Refusal.notDirectory.reason :=
    (Fault.document.inj (Failure.fault.inj (Except.error.inj hreasons))).2
  revert hreason
  decide

end VectorPath
