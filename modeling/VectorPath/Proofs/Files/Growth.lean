import VectorPath.Proofs.Files.Entries
import VectorPath.Proofs.Outcome

/-!
# Looking up files while log files grow

Log files are created and written to while documents and fonts are looked up. A lookup that does not
end at a log file finds what it would have found before, except that a place that leads through a
missing log file, as if it were a directory, is refused for another reason once the file is there.
-/

namespace VectorPath.Files

/-- The locations that have to be directories for names to be followed. -/
def way : Location → List String → List Location
  | _, [] => []
  | l, part :: rest => l :: way (next l part) rest

/-- A place leads nowhere, on a way where a log file may come into being. -/
def BlockedBy (files : Files) (logged : Location → Prop) (p : Place) : Prop :=
  files.locate p = .error .notFound ∧ ∃ l ∈ way (files.base p) p.parts, logged l

section Way

variable {files : Files} {l m : Location} {part : String} {rest : List String}

theorem walk_cons_directory (h : files.isDirectory l = true) :
    files.walk l (part :: rest) =
      if nameLimit < part.utf8ByteSize then .error .nameTooLong
      else files.walk (next l part) rest := by
  rw [walk]
  unfold exists?
  rw [h]
  rfl

theorem walk_cons_of_not_directory (h : files.isDirectory l = false) :
    files.walk l (part :: rest) =
      .error (if (files.entry? l).isSome then .notDirectory else .notFound) := by
  rw [walk]
  unfold exists?
  rw [h]
  cases files.entry? l <;> rfl

theorem housed_root : files.Housed [] := by
  intro above habove
  exact absurd (isBelow_iff.mp habove).2 (Nat.not_lt_zero _)

theorem housed_parent (h : files.Housed l) : files.Housed (parent l) := by
  intro above habove
  apply h above
  unfold parent at habove
  rw [isBelow_iff] at habove ⊢
  have hlength := l.dropLast_prefix.length_le
  exact ⟨habove.1.trans l.dropLast_prefix, by omega⟩

theorem housed_next (h : files.Housed l) (hl : files.isDirectory l = true) :
    files.Housed (next l part) := by
  unfold next
  split_ifs
  · exact housed_parent h
  · intro above habove
    rw [isBelow_iff, List.prefix_concat_iff] at habove
    obtain ⟨rfl | hinitial, hlength⟩ := habove
    · exact absurd hlength (Nat.lt_irrefl _)
    · -- Either the location above is the old one, or it is above that.
      by_cases hsame : above = l
      · rw [hsame]
        exact hl
      · apply h above
        have hne : above.length ≠ l.length := fun heq => hsame (hinitial.eq_of_length heq)
        exact isBelow_iff.mpr ⟨hinitial, Nat.lt_of_le_of_ne hinitial.length_le hne⟩

/-- Every location above the end of a lookup is a directory. -/
theorem walk_housed {parts : List String} (h : files.walk l parts = .ok m)
    (hl : files.Housed l) : files.Housed m := by
  induction parts generalizing l with
  | nil =>
      obtain rfl := Except.ok.inj h
      exact hl
  | cons part rest ih =>
      cases hdirectory : files.isDirectory l with
      | false =>
          rw [walk_cons_of_not_directory hdirectory] at h
          cases h
      | true =>
          rw [walk_cons_directory hdirectory] at h
          split_ifs at h
          exact ih h (housed_next hl hdirectory)

end Way

/-- Log files at some locations have been created or written to. -/
structure Grown (logged : Location → Prop) (files grown : Files) : Prop where
  directory : grown.directory = files.directory
  directories : ∀ l, grown.isDirectory l = files.isDirectory l
  entries : ∀ l, ¬ logged l → grown.entry? l = files.entry? l
  present : ∀ l, (files.entry? l).isSome = true → (grown.entry? l).isSome = true

namespace Grown

variable {logged : Location → Prop} {files grown more : Files} {l : Location} {e : Entry}

theorem refl (logged : Location → Prop) (files : Files) : Grown logged files files :=
  ⟨rfl, fun _ => rfl, fun _ _ => rfl, fun _ h => h⟩

theorem trans (h : Grown logged files grown) (h' : Grown logged grown more) :
    Grown logged files more where
  directory := h'.directory.trans h.directory
  directories l := (h'.directories l).trans (h.directories l)
  entries l hl := (h'.entries l hl).trans (h.entries l hl)
  present l hl := h'.present l (h.present l hl)

theorem imp {logged' : Location → Prop} (h : Grown logged files grown)
    (himp : ∀ l, logged l → logged' l) : Grown logged' files grown where
  directory := h.directory
  directories := h.directories
  entries l hl := h.entries l fun hlogged => hl (himp l hlogged)
  present := h.present

theorem set (hl : logged l) (hdirectory : files.isDirectory l = false) (hhoused : files.Housed l)
    (he : e.isFile = true) : Grown logged files (files.set l e) where
  directory := rfl
  directories m := isDirectory_set hdirectory hhoused he
  entries m hm := by
    rw [entry_set, if_neg]
    rintro rfl
    exact hm hl
  present m hm := by
    rw [entry_set]
    split_ifs
    · rfl
    · exact hm

theorem append (hl : logged l) (hdirectory : files.isDirectory l = false) (bytes : List UInt8) :
    Grown logged files (files.append l bytes) := by
  cases hentry : files.entry? l with
  | none =>
      unfold Files.append
      rw [hentry]
      exact refl logged files
  | some e =>
      have he := isFile_of_found hentry hdirectory
      obtain ⟨e', happend, he', -⟩ := append_eq_set hentry he bytes
      rw [happend]
      exact set hl hdirectory (housed_of_found hentry) he'

end Grown

section Opening

variable {files opened : Files} {p : Place} {l : Location}

theorem openAppend_of_locateFull (hlocate : files.locateFull p = .ok l)
    (hdirectory : files.isDirectory l = false) :
    files.openAppend p =
      .ok (l, if (files.entry? l).isSome then files else files.set l (.bytes [])) := by
  unfold openAppend
  rw [hlocate]
  change (if files.isDirectory l then _ else _) = _
  rw [hdirectory]
  cases files.entry? l <;> rfl

/-- A log file can be opened where its full text leads, unless that is a directory. -/
theorem openAppend_eq_ok :
    files.openAppend p = .ok (l, opened) ↔
      files.locateFull p = .ok l ∧ files.isDirectory l = false ∧
        opened = if (files.entry? l).isSome then files else files.set l (.bytes []) := by
  constructor
  · intro h
    obtain ⟨found, hlocate, hrest⟩ := bind_eq_ok.mp h
    cases hdirectory : files.isDirectory found with
    | true =>
        rw [hdirectory] at hrest
        cases hrest
    | false =>
        rw [openAppend_of_locateFull hlocate hdirectory] at h
        obtain ⟨rfl, rfl⟩ := Prod.mk.inj (Except.ok.inj h)
        exact ⟨hlocate, hdirectory, rfl⟩
  · rintro ⟨hlocate, hdirectory, rfl⟩
    exact openAppend_of_locateFull hlocate hdirectory

/-- An open log file is a file and holds what it held before. -/
theorem openAppend_holdsFile (h : files.openAppend p = .ok (l, opened)) :
    opened.HoldsFile l ∧ opened.contentAt l = files.contentAt l := by
  obtain ⟨-, hdirectory, rfl⟩ := openAppend_eq_ok.mp h
  cases hentry : files.entry? l with
  | some e => exact ⟨⟨e, hentry, isFile_of_found hentry hdirectory⟩, rfl⟩
  | none =>
      have hset : entry? (files.set l (.bytes [])) l = some (.bytes []) := by
        rw [entry_set, if_pos rfl]
      refine ⟨⟨_, hset, rfl⟩, (contentAt_of_found hset).trans ?_⟩
      unfold contentAt
      rw [hentry]
      rfl

theorem locateFull_housed (h : files.locateFull p = .ok l) : files.Housed l := by
  unfold locateFull at h
  split_ifs at h
  exact walk_housed h housed_root

theorem Grown.openAppend {logged : Location → Prop} (hl : logged l)
    (h : files.openAppend p = .ok (l, opened)) : Grown logged files opened := by
  obtain ⟨hlocate, hdirectory, rfl⟩ := openAppend_eq_ok.mp h
  split_ifs
  · exact Grown.refl logged files
  · exact Grown.set hl hdirectory (locateFull_housed hlocate) rfl

end Opening

/-- What a lookup gives before and after log files have grown. -/
inductive AsBefore {α : Type} (through : Prop) :
    Except Refusal α → Except Refusal α → Prop
  | same (o : Except Refusal α) : AsBefore through o o
  | blocked : through → AsBefore through (.error .notFound) (.error .notDirectory)

namespace AsBefore

variable {α β : Type} {through : Prop} {o o' : Except Refusal α}

theorem imp {through' : Prop} (h : AsBefore through o o')
    (himp : o = .error .notFound → through → through') : AsBefore through' o o' := by
  cases h with
  | same => exact .same _
  | blocked hthrough => exact .blocked (himp rfl hthrough)

theorem bind {f g : α → Except Refusal β} (h : AsBefore through o o')
    (hf : ∀ a, o = .ok a → f a = g a) : AsBefore through (o >>= f) (o' >>= g) := by
  cases h with
  | blocked hthrough => exact .blocked hthrough
  | same =>
      cases o with
      | error refusal => exact .same _
      | ok a =>
          change AsBefore through (f a) (g a)
          rw [hf a rfl]
          exact .same (g a)

theorem eq_ok_iff {a : α} (h : AsBefore through o o') : o' = .ok a ↔ o = .ok a := by
  cases h with
  | same => rfl
  | blocked => exact ⟨nofun, nofun⟩

end AsBefore

section Lookup

variable {logged : Location → Prop} {files grown : Files}

theorem Grown.walk (h : Grown logged files grown) (l : Location) (parts : List String) :
    AsBefore (∃ m ∈ way l parts, logged m) (files.walk l parts) (grown.walk l parts) := by
  induction parts generalizing l with
  | nil => exact .same (.ok l)
  | cons part rest ih =>
      have hafter := h.directories l
      cases hdirectory : files.isDirectory l with
      | true =>
          rw [hdirectory] at hafter
          rw [walk_cons_directory hdirectory, walk_cons_directory hafter]
          split_ifs
          · exact .same _
          · apply (ih (next l part)).imp
            rintro - ⟨m, hm, hlogged⟩
            exact ⟨m, List.mem_cons_of_mem l hm, hlogged⟩
      | false =>
          rw [hdirectory] at hafter
          rw [walk_cons_of_not_directory hdirectory, walk_cons_of_not_directory hafter]
          by_cases hlogged : logged l
          · split_ifs with hbefore hpresent
            · exact .same _
            · exact absurd (h.present l hbefore) hpresent
            · exact .blocked ⟨l, List.mem_cons_self .., hlogged⟩
            · exact .same _
          · rw [h.entries l hlogged]
            exact .same _

theorem Grown.locate (h : Grown logged files grown) (p : Place) :
    AsBefore (files.BlockedBy logged p) (files.locate p) (grown.locate p) := by
  have hbase : grown.base p = files.base p := by
    unfold base
    rw [h.directory]
  unfold BlockedBy Files.locate
  rw [hbase]
  split_ifs
  · exact .same _
  · apply (h.walk (files.base p) p.parts).imp
    intro hmissing hthrough
    exact ⟨hmissing, hthrough⟩

theorem Grown.absolute (h : Grown logged files grown) (p : Place) :
    grown.absolute p = files.absolute p := by
  unfold Files.absolute
  rw [h.directory]

theorem Grown.locateFull_eq_ok (h : Grown logged files grown) (p : Place) (l : Location) :
    grown.locateFull p = .ok l ↔ files.locateFull p = .ok l := by
  unfold locateFull fullText
  rw [h.absolute]
  split_ifs
  · rfl
  · exact (h.walk [] (files.absolute p).parts).eq_ok_iff

/-- A file that is not a log file is found as it was. -/
theorem Grown.find (h : Grown logged files grown) {p : Place}
    (hp : ∀ l, logged l → files.locate p ≠ .ok l) :
    AsBefore (files.BlockedBy logged p) (files.find p) (grown.find p) := by
  unfold Files.find
  apply (h.locate p).bind
  intro l hl
  rw [h.directories, h.entries l fun hlogged => hp l hlogged hl]

theorem Grown.readBytes (h : Grown logged files grown) {p : Place}
    (hp : ∀ l, logged l → files.locate p ≠ .ok l) :
    AsBefore (files.BlockedBy logged p) (files.readBytes p) (grown.readBytes p) := by
  unfold Files.readBytes
  apply (h.find hp).bind
  intro e _
  rfl

end Lookup

end VectorPath.Files
