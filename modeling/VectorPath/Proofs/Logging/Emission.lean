import Mathlib.Data.List.Basic
import Mathlib.Data.Nat.Notation
import VectorPath.Logging.Session
import VectorPath.Proofs.Files.Entries

/-!
# What logging does to a session

A record is given to every handler in force, and a handler writes it once or not at all. So how
often a record is written to an outlet is a number of handlers, and logging records adds lines to
the messages and bytes to the files of handlers, and changes nothing else of a session. In
particular it keeps the handlers and the clock, so what any number of records leave can be told from
the session before the first of them.
-/

namespace VectorPath

/-- Whether a handler writes records of a level to an outlet. -/
def Handler.writes (outlet : Outlet) (level : Level) : Handler → Bool
  | .marked o threshold => o = outlet && threshold.passes level
  | .foreign _ => false

namespace Session

/-- How often a record is written to an outlet. -/
def copies (s : Session) (outlet : Outlet) (r : Record) : ℕ :=
  s.inForce.countP (Handler.writes outlet r.level)

/-- What logging leaves alone. -/
structure Kept (s t : Session) : Prop where
  clock : t.clock = s.clock
  handlers : t.handlers = s.handlers

namespace Kept

variable {s t u : Session}

theorem refl (s : Session) : s.Kept s := ⟨rfl, rfl⟩

theorem trans (h : s.Kept t) (h' : t.Kept u) : s.Kept u :=
  ⟨h'.clock.trans h.clock, h'.handlers.trans h.handlers⟩

theorem copies (h : s.Kept t) (outlet : Outlet) (r : Record) :
    t.copies outlet r = s.copies outlet r := by
  unfold Session.copies inForce
  rw [h.handlers]

theorem fileBytes (h : s.Kept t) (r : Record) : t.fileBytes r = s.fileBytes r := by
  unfold Session.fileBytes
  rw [h.clock]

end Kept

def lines (s : Session) (rs : List Record) : List String :=
  rs.flatMap fun r => List.replicate (s.copies .console r) (r.line s.clock.stamp)

def bytesAt (s : Session) (l : Location) (rs : List Record) : List UInt8 :=
  (rs.flatMap fun r => List.replicate (s.copies (.file l) r) (s.fileBytes r)).flatten

theorem Kept.lines {s t : Session} (h : s.Kept t) (rs : List Record) : t.lines rs = s.lines rs := by
  unfold Session.lines
  rw [h.clock]
  simp only [h.copies]

theorem Kept.bytesAt {s t : Session} (h : s.Kept t) (l : Location) (rs : List Record) :
    t.bytesAt l rs = s.bytesAt l rs := by
  unfold Session.bytesAt
  simp only [h.copies, h.fileBytes]

theorem lines_append (s : Session) (rs rs' : List Record) :
    s.lines (rs ++ rs') = s.lines rs ++ s.lines rs' := List.flatMap_append

theorem bytesAt_append (s : Session) (l : Location) (rs rs' : List Record) :
    s.bytesAt l (rs ++ rs') = s.bytesAt l rs ++ s.bytesAt l rs' := by
  unfold bytesAt
  rw [List.flatMap_append, List.flatten_append]

section Handlers

variable (s : Session) (r : Record) (hs : List Handler)

theorem handle_marked (outlet : Outlet) (threshold : Level) :
    s.handle r (.marked outlet threshold) =
      if threshold.passes r.level then s.write r outlet else s := rfl

theorem handle_kept (h : Handler) : s.Kept (s.handle r h) := by
  cases h with
  | foreign => exact Kept.refl s
  | marked outlet threshold =>
      rw [handle_marked]
      split
      · cases outlet <;> exact ⟨rfl, rfl⟩
      · exact Kept.refl s

theorem foldl_handle_kept : s.Kept (hs.foldl (handle r) s) := by
  induction hs generalizing s with
  | nil => exact Kept.refl s
  | cons h hs ih => exact (s.handle_kept r h).trans (ih (s.handle r h))

theorem handle_input (h : Handler) : (s.handle r h).input = s.input := by
  cases h with
  | foreign => rfl
  | marked outlet threshold =>
      rw [handle_marked]
      split
      · cases outlet <;> rfl
      · rfl

theorem foldl_handle_input : (hs.foldl (handle r) s).input = s.input := by
  induction hs generalizing s with
  | nil => rfl
  | cons h hs ih => exact (ih (s.handle r h)).trans (s.handle_input r h)

theorem handle_messages (h : Handler) :
    (s.handle r h).messages =
      s.messages ++ if h.writes .console r.level then [r.line s.clock.stamp] else [] := by
  cases h with
  | foreign => exact (List.append_nil _).symm
  | marked outlet threshold =>
      rw [handle_marked]
      cases outlet with
      | console =>
          by_cases hpass : threshold.passes r.level = true
          · simp [Handler.writes, hpass, write, say]
          · simp [Handler.writes, hpass]
      | file l => split <;> simp [Handler.writes, write]

theorem foldl_handle_messages :
    (hs.foldl (handle r) s).messages = s.messages ++
      List.replicate (hs.countP (Handler.writes .console r.level)) (r.line s.clock.stamp) := by
  induction hs generalizing s with
  | nil => exact (List.append_nil _).symm
  | cons h hs ih =>
      rw [List.foldl_cons, ih, (s.handle_kept r h).clock, handle_messages, List.append_assoc,
        List.countP_cons, Nat.add_comm, List.replicate_add]
      split_ifs <;> rfl

theorem emit_kept : s.Kept (s.emit r) := s.foldl_handle_kept r _

theorem emit_input : (s.emit r).input = s.input := s.foldl_handle_input r _

theorem emit_messages : (s.emit r).messages = s.messages ++ s.lines [r] := by
  unfold lines copies
  rw [List.flatMap_singleton]
  exact s.foldl_handle_messages r _

theorem messages_prefix_emit : s.messages <+: (s.emit r).messages := by
  rw [emit_messages]
  exact List.prefix_append _ _

end Handlers

theorem foldl_emit_kept (s : Session) (rs : List Record) : s.Kept (rs.foldl emit s) := by
  induction rs generalizing s with
  | nil => exact Kept.refl s
  | cons r rs ih => exact (s.emit_kept r).trans (ih (s.emit r))

theorem foldl_emit_messages (s : Session) (rs : List Record) :
    (rs.foldl emit s).messages = s.messages ++ s.lines rs := by
  induction rs generalizing s with
  | nil => exact (List.append_nil _).symm
  | cons r rs ih =>
      rw [List.foldl_cons, ih, emit_messages, (s.emit_kept r).lines, List.append_assoc,
        ← lines_append]
      rfl

section Files

variable {s t u : Session} {l : Location} {rs rs' : List Record}

def LogsToNoFile (s : Session) : Prop :=
  ∀ l threshold, Handler.marked (.file l) threshold ∉ s.handlers

theorem Kept.logsToNoFile (h : s.Kept t) (hs : s.LogsToNoFile) : t.LogsToNoFile := by
  unfold LogsToNoFile
  rw [h.handlers]
  exact hs

theorem handle_files {h : Handler} (hh : ∀ l threshold, .marked (.file l) threshold ≠ h)
    (s : Session) (r : Record) : (s.handle r h).files = s.files := by
  cases h with
  | foreign => rfl
  | marked outlet threshold =>
      cases outlet with
      | console =>
          rw [handle_marked]
          split <;> rfl
      | file l => exact absurd rfl (hh l threshold)

theorem foldl_handle_files {hs : List Handler}
    (hhs : ∀ l threshold, Handler.marked (.file l) threshold ∉ hs) (s : Session) (r : Record) :
    (hs.foldl (handle r) s).files = s.files := by
  induction hs generalizing s with
  | nil => rfl
  | cons h hs ih =>
      rw [List.foldl_cons, ih fun l threshold => List.not_mem_of_not_mem_cons (hhs l threshold)]
      exact handle_files (fun l threshold => List.ne_of_not_mem_cons (hhs l threshold)) s r

/-- Without a handler for a file no file changes. -/
theorem emit_files (h : s.LogsToNoFile) (r : Record) : (s.emit r).files = s.files := by
  apply foldl_handle_files
  intro l threshold
  unfold inForce
  split
  · simp
  · exact h l threshold

theorem foldl_emit_files (h : s.LogsToNoFile) (rs : List Record) :
    (rs.foldl emit s).files = s.files := by
  induction rs generalizing s with
  | nil => rfl
  | cons r rs ih =>
      rw [List.foldl_cons, ih ((s.emit_kept r).logsToNoFile h), emit_files h]

/-- What a handler writes to a file; writing elsewhere leaves the file as it is. -/
theorem handle_content (h : s.files.HoldsFile l) (r : Record) (handler : Handler) :
    (s.handle r handler).files.HoldsFile l ∧
      (s.handle r handler).files.contentAt l = s.files.contentAt l ++
        if handler.writes (.file l) r.level then s.fileBytes r else [] := by
  cases handler with
  | foreign => exact ⟨h, (List.append_nil _).symm⟩
  | marked outlet threshold =>
      rw [handle_marked]
      by_cases hpass : threshold.passes r.level = true
      · cases outlet with
        | console =>
            simpa [Handler.writes, hpass, write, say] using h
        | file m =>
            by_cases hm : m = l
            · have happend := Files.append_holdsFile h (s.fileBytes r)
              simpa [Handler.writes, hpass, write, hm] using happend
            · have hother := Files.append_other hm h (s.fileBytes r)
              simpa [Handler.writes, hpass, write, hm] using hother
      · exact ⟨by simpa [hpass] using h, by simp [Handler.writes, hpass]⟩

theorem foldl_handle_content (h : s.files.HoldsFile l) (r : Record) (hs : List Handler) :
    (hs.foldl (handle r) s).files.HoldsFile l ∧
      (hs.foldl (handle r) s).files.contentAt l = s.files.contentAt l ++
        (List.replicate (hs.countP (Handler.writes (.file l) r.level))
          (s.fileBytes r)).flatten := by
  induction hs generalizing s with
  | nil => exact ⟨h, (List.append_nil _).symm⟩
  | cons handler hs ih =>
      obtain ⟨hfile, hcontent⟩ := handle_content h r handler
      obtain ⟨hfiles, hcontents⟩ := ih hfile
      refine ⟨hfiles, ?_⟩
      rw [List.foldl_cons, hcontents, hcontent, (s.handle_kept r handler).fileBytes,
        List.append_assoc, List.countP_cons, Nat.add_comm, List.replicate_add, List.flatten_append]
      split_ifs <;> simp

/-- What records make of a session and of a file in it. -/
structure LoggedTo (s : Session) (l : Location) (rs : List Record) (t : Session) : Prop where
  kept : s.Kept t
  messages : t.messages = s.messages ++ s.lines rs
  file : t.files.HoldsFile l
  content : t.files.contentAt l = s.files.contentAt l ++ s.bytesAt l rs

theorem LoggedTo.refl (h : s.files.HoldsFile l) : s.LoggedTo l [] s :=
  ⟨Kept.refl s, (List.append_nil _).symm, h, (List.append_nil _).symm⟩

theorem LoggedTo.trans (h : s.LoggedTo l rs t) (h' : t.LoggedTo l rs' u) :
    s.LoggedTo l (rs ++ rs') u where
  kept := h.kept.trans h'.kept
  messages := by
    rw [h'.messages, h.messages, h.kept.lines, lines_append, List.append_assoc]
  file := h'.file
  content := by
    rw [h'.content, h.content, h.kept.bytesAt, bytesAt_append, List.append_assoc]

theorem emit_loggedTo (h : s.files.HoldsFile l) (r : Record) : s.LoggedTo l [r] (s.emit r) := by
  obtain ⟨hfile, hcontent⟩ := foldl_handle_content h r s.inForce
  refine ⟨s.emit_kept r, s.emit_messages r, hfile, ?_⟩
  unfold bytesAt copies
  rw [List.flatMap_singleton]
  exact hcontent

theorem foldl_emit_loggedTo (h : s.files.HoldsFile l) (rs : List Record) :
    s.LoggedTo l rs (rs.foldl emit s) := by
  induction rs generalizing s with
  | nil => exact .refl h
  | cons r rs ih =>
      have hone := emit_loggedTo h r
      exact hone.trans (ih hone.file)

end Files

end Session

end VectorPath
