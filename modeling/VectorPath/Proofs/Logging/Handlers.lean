import Mathlib.Data.List.Perm.Basic
import VectorPath.Proofs.Logging.Emission

/-!
# The handlers of a setup

The loop that removes the marked handlers leaves the foreign ones in their order, however many
marked ones there were and in whatever order. A setup then puts one handler for the console behind
them, and perhaps one for a log file. As long as these are the marked handlers, a record is written
once to the console and once to the log file if the thresholds let it pass, and nowhere else.
-/

namespace VectorPath

/-- An open log file and the least level of the records written to it. -/
structure FileSink where
  location : Location
  threshold : Level

namespace Handler

variable {handlers left : List Handler}

/-- What the loop has not come to yet is what is left of the marked handlers. -/
theorem foldl_erase_marked
    (h : (handlers.filter isMarked).Perm (left.filter isMarked)) :
    handlers.foldl (fun left h => if h.isMarked then left.erase h else left) left =
      left.filter (!·.isMarked) := by
  induction handlers generalizing left with
  | nil =>
      have hnone : left.filter isMarked = [] := h.symm.eq_nil
      rw [List.filter_eq_nil_iff] at hnone
      refine (List.filter_eq_self.mpr fun handler hmem => ?_).symm
      rw [Bool.not_eq_true', Bool.eq_false_iff]
      exact hnone handler hmem
  | cons handler rest ih =>
      rw [List.foldl_cons]
      cases hmark : handler.isMarked with
      | false =>
          rw [List.filter_cons_of_neg (by simp [hmark])] at h
          exact ih h
      | true =>
          rw [List.filter_cons_of_pos hmark] at h
          have hrest : (rest.filter isMarked).Perm ((left.erase handler).filter isMarked) := by
            rw [← List.erase_filter]
            exact (List.cons_perm_iff_perm_erase.mp h).2
          rw [if_pos rfl, ih hrest, ← List.erase_filter]
          exact List.erase_of_not_mem (by simp [hmark])

/-- Nothing but the foreign handlers is left, in their order. -/
theorem removeMarked_eq (handlers : List Handler) :
    removeMarked handlers = handlers.filter (!·.isMarked) := foldl_erase_marked (.refl _)

def installed (console : Level) (sink? : Option FileSink) : List Handler :=
  marked .console console ::
    (sink?.map fun sink => marked (.file sink.location) sink.threshold).toList

theorem isMarked_of_writes {outlet : Outlet} {level : Level} {h : Handler}
    (hwrites : h.writes outlet level = true) : h.isMarked = true := by
  cases h with
  | foreign => cases hwrites
  | marked => rfl

/-- Foreign handlers do not write anywhere that is seen. -/
theorem countP_writes (outlet : Outlet) (level : Level) (handlers : List Handler) :
    handlers.countP (writes outlet level) =
      (handlers.filter isMarked).countP (writes outlet level) := by
  rw [List.countP_filter]
  apply List.countP_congr
  intro h _
  rw [Bool.and_eq_true]
  exact ⟨fun hwrites => ⟨hwrites, isMarked_of_writes hwrites⟩, And.left⟩

end Handler

namespace Session

def others (s : Session) : List Handler := s.handlers.filter (!·.isMarked)

/-- A session whose handlers are those of other code and those of one setup. -/
def HasInstalled (s : Session) (level : Level) (sink? : Option FileSink) : Prop :=
  s.handlers.filter Handler.isMarked = Handler.installed level sink?

/-- The location that a log file is at. -/
def HeldBy (sink? : Option FileSink) (l : Location) : Prop :=
  ∃ sink, sink? = some sink ∧ sink.location = l

namespace HasInstalled

variable {s : Session} {level : Level} {sink? : Option FileSink}

theorem inForce_eq (h : s.HasInstalled level sink?) : s.inForce = s.handlers := by
  have hne : s.handlers ≠ [] := by
    rintro hnil
    unfold HasInstalled at h
    rw [hnil] at h
    cases h
  unfold inForce
  rw [if_neg (by simpa using hne)]

theorem copies (h : s.HasInstalled level sink?) (outlet : Outlet) (r : Record) :
    s.copies outlet r = (Handler.installed level sink?).countP (Handler.writes outlet r.level) := by
  unfold Session.copies
  rw [h.inForce_eq, Handler.countP_writes, h]

/-- A record is written to the console once or, if its level does not pass, not at all. -/
theorem copies_console (h : s.HasInstalled level sink?) (r : Record) :
    s.copies .console r = if level.passes r.level then 1 else 0 := by
  rw [h.copies]
  cases sink? <;> simp [Handler.installed, Handler.writes, List.countP_cons]

theorem copies_file {sink : FileSink} (h : s.HasInstalled level (some sink)) (r : Record) :
    s.copies (.file sink.location) r = if sink.threshold.passes r.level then 1 else 0 := by
  rw [h.copies]
  simp [Handler.installed, Handler.writes, List.countP_cons]

theorem copies_other {l : Location} (h : s.HasInstalled level sink?) (hl : ¬ HeldBy sink? l)
    (r : Record) : s.copies (.file l) r = 0 := by
  rw [h.copies]
  cases sink? with
  | none => rfl
  | some sink =>
      have hne : sink.location ≠ l := fun heq => hl ⟨sink, rfl, heq⟩
      simp [Handler.installed, Handler.writes, hne]

end HasInstalled

/-- What is written once or not at all is written for the records that pass. -/
theorem flatMap_replicate {α β : Type} (p : α → Bool) (f : α → β) (xs : List α) :
    (xs.flatMap fun x => List.replicate (if p x then 1 else 0) (f x)) = (xs.filter p).map f := by
  induction xs with
  | nil => rfl
  | cons x xs ih =>
      rw [List.flatMap_cons, ih]
      cases hx : p x with
      | true =>
          rw [List.filter_cons_of_pos hx]
          rfl
      | false =>
          rw [List.filter_cons_of_neg (by simp [hx])]
          rfl

theorem lines_of_copies {s : Session} {p : Record → Bool}
    (h : ∀ r, s.copies .console r = if p r then 1 else 0) (rs : List Record) :
    s.lines rs = (rs.filter p).map (Record.line s.clock.stamp) := by
  unfold lines
  simp only [h]
  exact flatMap_replicate p _ rs

theorem bytesAt_of_copies {s : Session} {l : Location} {p : Record → Bool}
    (h : ∀ r, s.copies (.file l) r = if p r then 1 else 0) (rs : List Record) :
    s.bytesAt l rs = (rs.filter p).flatMap s.fileBytes := by
  unfold bytesAt
  simp only [h]
  rw [flatMap_replicate, List.flatMap_def]

end Session

end VectorPath
