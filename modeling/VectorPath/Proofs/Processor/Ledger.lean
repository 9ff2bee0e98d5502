import Mathlib.Data.Int.Notation
import Mathlib.Data.List.Basic
import Mathlib.Data.Nat.Notation
import VectorPath.CoreNumerals
import VectorPath.Proofs.Path.Tokens
import VectorPath.Proofs.Processor.Calls

/-!
# The statistics as a ledger

The statistics of a processor are a function of its calls and of what came of them: the paths and
the segments of the calls that returned a text, counted by letter, and an entry for every call that
met a fault, in order. Every call is made in a session of its own, since the files, standard input
and the sinks may change between two calls.
-/

namespace VectorPath

open scoped CoreNumerals

namespace Statistics

/-- The count under a letter, which is zero unless the letter has been counted. -/
def countIn (letter : String) : List (String × ℤ) → ℤ
  | [] => 0
  | entry :: rest => if entry.1 = letter then entry.2 else countIn letter rest

def total (select : String → Bool) (counts : List (String × ℤ)) : ℤ :=
  ((counts.filter fun entry => select entry.1).map Prod.snd).sum

theorem total_cons (select : String → Bool) (entry : String × ℤ) (rest : List (String × ℤ)) :
    total select (entry :: rest) = (if select entry.1 then entry.2 else 0) + total select rest := by
  unfold total
  by_cases h : select entry.1 = true
  · rw [List.filter_cons_of_pos (by simpa using h), if_pos h, List.map_cons, List.sum_cons]
  · rw [List.filter_cons_of_neg (by simpa using h), if_neg h, Int.zero_add]

theorem total_all (counts : List (String × ℤ)) :
    total (fun _ => true) counts = (counts.map Prod.snd).sum := by
  unfold total
  rw [List.filter_eq_self.mpr fun _ _ => rfl]

theorem countIn_countLetter (letter other : String) (counts : List (String × ℤ)) :
    countIn letter (countLetter other counts) =
      countIn letter counts + if other = letter then 1 else 0 := by
  induction counts with
  | nil => simp [countLetter, countIn]
  | cons entry rest ih =>
      by_cases hentry : entry.1 = other
      · subst hentry
        by_cases hletter : entry.1 = letter <;> simp [countLetter, countIn, hletter]
      · by_cases hletter : entry.1 = letter
        · have hother : other ≠ letter := fun h => hentry (hletter.trans h.symm)
          simp [countLetter, countIn, hletter, hother, hother.symm]
        · simp [countLetter, countIn, hentry, hletter, ih]

theorem total_countLetter (select : String → Bool) (letter : String)
    (counts : List (String × ℤ)) :
    total select (countLetter letter counts) =
      total select counts + if select letter then 1 else 0 := by
  induction counts with
  | nil =>
      unfold countLetter
      rw [total_cons, Int.add_comm]
  | cons entry rest ih =>
      by_cases hentry : entry.1 = letter
      · simp only [countLetter, hentry, if_true, total_cons]
        split_ifs <;> omega
      · simp only [countLetter, hentry, if_false, total_cons, ih]
        omega

theorem countIn_countLetters (letter : String) (cs : List Command) (counts : List (String × ℤ)) :
    countIn letter (countLetters cs counts) =
      countIn letter counts + cs.countP fun c => String.singleton c.letter = letter := by
  unfold countLetters
  induction cs generalizing counts with
  | nil => simp
  | cons c cs ih =>
      rw [List.foldl_cons, ih, countIn_countLetter, List.countP_cons]
      simp only [decide_eq_true_eq]
      split_ifs <;> push_cast <;> omega

theorem total_countLetters (select : String → Bool) (cs : List Command)
    (counts : List (String × ℤ)) :
    total select (countLetters cs counts) =
      total select counts + cs.countP fun c => select (String.singleton c.letter) := by
  unfold countLetters
  induction cs generalizing counts with
  | nil => simp
  | cons c cs ih =>
      rw [List.foldl_cons, ih, total_countLetter, List.countP_cons]
      split_ifs <;> push_cast <;> omega

end Statistics

/-- The small letters are those of the relative forms. -/
theorem isLower_letter (form : Form) :
    Text.isLower (String.singleton form.letter) = form.relative := by
  obtain ⟨kind, relative⟩ := form
  cases kind <;> cases relative <;> decide +kernel

namespace Value

def hasLetter (letter : String) : Value → Bool
  | .command form _ => String.singleton form.letter = letter
  | _ => false

def isRelative : Value → Bool
  | .command form _ => form.relative
  | _ => false

theorem countP_hasLetter (letter : String) (cs : List Command) :
    (cs.map Command.toValue).countP (hasLetter letter) =
      cs.countP fun c => String.singleton c.letter = letter := by
  rw [List.countP_map]
  rfl

theorem countP_isRelative (cs : List Command) :
    (cs.map Command.toValue).countP isRelative =
      cs.countP fun c => Text.isLower (String.singleton c.letter) := by
  rw [List.countP_map]
  congr 1
  funext c
  exact (isLower_letter c.form).symm

end Value

namespace Request

def loadedSegments : Outcome (List Command) → List Value
  | .ok cs => cs.map Command.toValue
  | .error _ => []

/-- The segments that a request asks to write: the given items, or what is loaded. -/
def segments [Depth] (files : Files) : Request → List Value
  | .items vs _ => vs
  | .document place input => loadedSegments (Document.read files input place)
  | .glyph place name => loadedSegments (OutlineReader.outlineAt files place name)

theorem loadedSegments_of_written {writing : WritingSettings} {loaded : Outcome (List Command)}
    {cs : List Command} {text : String} (h : writtenLoaded writing loaded = .ok (cs, text)) :
    loadedSegments loaded = cs.map Command.toValue := by
  obtain ⟨ds, hds, hrest⟩ := bind_eq_ok.mp h
  obtain ⟨t, -, hpair⟩ := bind_eq_ok.mp hrest
  rw [hds, ← (Prod.mk.inj (Except.ok.inj hpair)).1]
  rfl

/-- A path that has been written is the path of all segments of the request. -/
theorem segments_of_written [Depth] {writing : WritingSettings} {files : Files} {r : Request}
    {cs : List Command} {text : String} (h : r.written writing files = .ok (cs, text)) :
    r.segments files = cs.map Command.toValue := by
  cases r with
  | items vs source =>
      obtain ⟨t, ht, hpair⟩ := bind_eq_ok.mp h
      obtain ⟨ds, rfl, -⟩ := WritingSettings.commands_of_path ht
      have hds : (ds.map Command.toValue).filterMap Command.ofValue? = ds := by
        rw [List.filterMap_map]
        have hsome : Command.ofValue? ∘ Command.toValue = some :=
          funext Command.ofValue?_toValue
        rw [hsome, List.filterMap_some]
      rw [← (Prod.mk.inj (Except.ok.inj hpair)).1, hds]
      rfl
  | document place input => exact loadedSegments_of_written h
  | glyph place name => exact loadedSegments_of_written h

end Request

structure Asked where
  request : Request
  session : Session

structure Answered extends Asked where
  outcome : Outcome String

namespace Answered

def returned (m : Answered) : Bool := m.outcome.toBool

def segments [Depth] (m : Answered) : List Value :=
  if m.returned then m.request.segments m.session.files else []

def fault? (m : Answered) : Option (String × String) :=
  match m.outcome with
  | .error (.fault f) => some (m.request.source, f.message)
  | _ => none

end Answered

/-- What statistics must say after calls. -/
structure Statistics.IsLedger [Depth] (statistics : Statistics) (calls : List Answered) : Prop where
  paths : statistics.paths = calls.countP Answered.returned
  segments : statistics.segments = (calls.flatMap Answered.segments).length
  sum : (statistics.counts.map Prod.snd).sum = statistics.segments
  letters : ∀ letter, countIn letter statistics.counts =
    (calls.flatMap Answered.segments).countP (Value.hasLetter letter)
  relative : statistics.relativeCount = (calls.flatMap Answered.segments).countP Value.isRelative
  errors : statistics.errors = calls.filterMap Answered.fault?
  errorCount : statistics.errorCount = statistics.errors.length

namespace Processor

def run [Depth] (p : Processor) : List Asked → List Answered × Processor
  | [] => ([], p)
  | c :: cs =>
      let step := p.answer c.session c.request
      let rest := step.processor.run cs
      (⟨c, step.outcome⟩ :: rest.1, rest.2)

end Processor

namespace Statistics.IsLedger

variable [Depth] {statistics : Statistics} {calls : List Answered} {c : Asked}

theorem empty : ({} : Statistics).IsLedger [] :=
  ⟨rfl, rfl, rfl, fun _ => rfl, rfl, rfl, rfl⟩

/-- A call that returned a text adds its segments. -/
theorem encoded (h : statistics.IsLedger calls) {text : String} {cs : List Command}
    (hcs : c.request.segments c.session.files = cs.map Command.toValue) :
    (statistics.encoded cs).IsLedger (calls ++ [⟨c, .ok text⟩]) := by
  have hsegments : List.flatMap Answered.segments (calls ++ [⟨c, .ok text⟩]) =
      calls.flatMap Answered.segments ++ cs.map Command.toValue := by
    rw [List.flatMap_append, ← hcs]
    exact congrArg _ (List.append_nil _)
  constructor
  · rw [List.countP_append, ← h.paths]
    rfl
  · rw [hsegments, List.length_append, ← h.segments, List.length_map]
    rfl
  · have htotal := total_countLetters (fun _ => true) cs statistics.counts
    rw [total_all, total_all, h.sum, List.countP_true] at htotal
    exact htotal
  · intro letter
    rw [hsegments, List.countP_append, Value.countP_hasLetter]
    push_cast
    rw [← h.letters letter]
    exact countIn_countLetters letter cs statistics.counts
  · rw [hsegments, List.countP_append, Value.countP_isRelative]
    push_cast
    rw [← h.relative]
    exact total_countLetters Text.isLower cs statistics.counts
  · rw [List.filterMap_append, ← h.errors]
    exact (List.append_nil _).symm
  · exact h.errorCount

/-- A call that failed adds an entry for a fault and nothing for a mishap. -/
theorem failed (h : statistics.IsLedger calls) (f : Failure) :
    (statistics.noted c.request.source (.error f)).IsLedger (calls ++ [⟨c, .error f⟩]) := by
  have hsegments : List.flatMap Answered.segments (calls ++ [⟨c, .error f⟩]) =
      calls.flatMap Answered.segments := by
    rw [List.flatMap_append]
    exact List.append_nil _
  constructor
  · rw [List.countP_append]
    cases f <;> exact h.paths
  · rw [hsegments]
    cases f <;> exact h.segments
  · cases f <;> exact h.sum
  · rw [hsegments]
    cases f <;> exact h.letters
  · rw [hsegments]
    cases f <;> exact h.relative
  · rw [List.filterMap_append, ← h.errors]
    cases f with
    | fault f => rfl
    | mishap m => exact (List.append_nil _).symm
  · cases f with
    | fault f =>
        change statistics.errorCount + 1 = (statistics.errors ++ [_]).length
        rw [h.errorCount, List.length_append]
        rfl
    | mishap m => exact h.errorCount

theorem answer {p : Processor} (h : p.statistics.IsLedger calls) (c : Asked) :
    (p.answer c.session c.request).processor.statistics.IsLedger
      (calls ++ [⟨c, (p.answer c.session c.request).outcome⟩]) := by
  rw [Processor.answer_outcome, Processor.answer_processor]
  rcases hwritten : c.request.written p.writing c.session.files with f | ⟨cs, text⟩
  · exact h.failed f
  · exact h.encoded (Request.segments_of_written hwritten)

theorem run {p : Processor} (h : p.statistics.IsLedger calls) (more : List Asked) :
    (p.run more).2.statistics.IsLedger (calls ++ (p.run more).1) := by
  -- The calls made so far grow along the run, so they are generalized together with the processor.
  induction more generalizing p calls with
  | nil =>
      change p.statistics.IsLedger (calls ++ [])
      rw [List.append_nil]
      exact h
  | cons c more ih =>
      have hrest := ih (h.answer c)
      rw [List.append_assoc] at hrest
      exact hrest

end Statistics.IsLedger

theorem Processor.start_eq {settings : Settings} {quiet : Bool} {s : Session} {p : Processor}
    (h : (Processor.start settings quiet s).1 = .ok p) : p = ⟨settings.writing, {}⟩ := by
  unfold Processor.start at h
  split at h
  · cases h
  · exact (Except.ok.inj h).symm

/-- A mishap passes a processor without a trace. -/
theorem Processor.answer_mishap [Depth] {p : Processor} {s : Session} {r : Request} {m : Mishap}
    (h : (p.answer s r).outcome = .error (.mishap m)) : (p.answer s r).processor = p := by
  rw [answer_outcome] at h
  rw [answer_processor]
  rcases hwritten : r.written p.writing s.files with f | ⟨cs, text⟩
  · rw [hwritten] at h
    rw [Except.error.inj h]
    rfl
  · rw [hwritten] at h
    cases h

/-- After any calls the statistics of a new processor are the ledger of these calls, and a call
that meets a mishap then does not change them. -/
theorem statistics_after_calls [Depth] (settings : Settings) (quiet : Bool) (s : Session)
    {p : Processor} (h : (Processor.start settings quiet s).1 = .ok p) (calls : List Asked) :
    (p.run calls).2.statistics.IsLedger (p.run calls).1 ∧
      ∀ (c : Asked) (m : Mishap),
        ((p.run calls).2.answer c.session c.request).outcome = .error (.mishap m) →
        ((p.run calls).2.answer c.session c.request).processor.statistics =
          (p.run calls).2.statistics := by
  constructor
  · have hempty : p.statistics.IsLedger [] := by
      rw [Processor.start_eq h]
      exact Statistics.IsLedger.empty
    exact hempty.run calls
  · intro c m hmishap
    rw [Processor.answer_mishap hmishap]

/-- A path of one command, a document that is no JSON, and an item that is no command. -/
def sampleCalls (s : Session) : List Asked :=
  [⟨.items [(Command.absolute .closePath).toValue] "given", s⟩,
    ⟨.document Place.standardInput "[", s⟩, ⟨.items [.null] "null", s⟩]

open scoped Depth in
/-- The statistics after a text, a fault and a mishap. -/
theorem statistics_after_sample_calls :
    (Processor.run ⟨{}, {}⟩ (sampleCalls (.start ⟨"T", "T"⟩ ⟨["w"], []⟩ ""))).2.statistics.IsLedger
      (Processor.run ⟨{}, {}⟩ (sampleCalls (.start ⟨"T", "T"⟩ ⟨["w"], []⟩ ""))).1 :=
  (statistics_after_calls {} true (.start ⟨"T", "T"⟩ ⟨["w"], []⟩ "") rfl _).1

end VectorPath
