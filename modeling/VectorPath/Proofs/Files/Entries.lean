import Mathlib.Data.List.Basic
import VectorPath.Files.Basic

/-!
# Entries of files

Setting an entry changes what one location holds. It does not change which locations are
directories, as long as the entry is a file, the location is not a directory itself and every
location above it is one. This is all that opening a log file and writing to it do to the files.
-/

namespace VectorPath

/-- Whether an entry is a file, and not a directory. -/
def Entry.isFile : Entry → Bool
  | .directory => false
  | _ => true

def Entry.content : Entry → List UInt8
  | .bytes content => content
  | .font tables appended => Files.fontBytes tables appended
  | .directory => []

namespace Files

variable {files : Files} {l m : Location} {e : Entry}

def Housed (files : Files) (l : Location) : Prop :=
  ∀ above, isBelow above l = true → files.isDirectory above = true

/-- The bytes of the file at a location; none if there is nothing. -/
def contentAt (files : Files) (l : Location) : List UInt8 :=
  ((files.entry? l).map Entry.content).getD []

def HoldsFile (files : Files) (l : Location) : Prop :=
  ∃ e, files.entry? l = some e ∧ e.isFile = true

/-- The entry that a list has for a location. -/
def lookUp (entries : List (Location × Entry)) (l : Location) : Option Entry :=
  (entries.find? fun e => e.1 == l).map Prod.snd

section LookUp

variable {entries : List (Location × Entry)}

theorem lookUp_cons (entry : Location × Entry) (rest : List (Location × Entry)) (l : Location) :
    lookUp (entry :: rest) l = if entry.1 = l then some entry.2 else lookUp rest l := by
  unfold lookUp
  rw [List.find?_cons]
  cases h : entry.1 == l with
  | true => rw [if_pos (beq_iff_eq.mp h), Option.map_some]
  | false => rw [if_neg (beq_eq_false_iff_ne.mp h)]

theorem lookUp_map (entries : List (Location × Entry)) (l m : Location) (e : Entry) :
    lookUp (entries.map fun old => if old.1 == l then (l, e) else old) m =
      if m = l then (lookUp entries l).map fun _ => e else lookUp entries m := by
  induction entries with
  | nil => split_ifs <;> rfl
  | cons old rest ih =>
      rw [List.map_cons, lookUp_cons, ih, lookUp_cons, lookUp_cons]
      by_cases hold : old.1 = l
      · by_cases hm : m = l
        · simp [hold, hm]
        · simp [hold, hm, Ne.symm hm]
      · by_cases hm : m = l
        · simp [hold, hm]
        · simp [hold, hm]

theorem lookUp_concat (entries : List (Location × Entry)) (l m : Location) (e : Entry) :
    lookUp (entries ++ [(l, e)]) m = (lookUp entries m).or (if l = m then some e else none) := by
  induction entries with
  | nil => exact lookUp_cons (l, e) [] m
  | cons old rest ih =>
      rw [List.cons_append, lookUp_cons, lookUp_cons, ih]
      split_ifs <;> rfl

theorem mem_of_lookUp (h : lookUp entries l = some e) : (l, e) ∈ entries := by
  induction entries with
  | nil => cases h
  | cons old rest ih =>
      rw [lookUp_cons] at h
      split_ifs at h with hold
      · obtain rfl := Option.some.inj h
        rw [← hold]
        exact List.mem_cons_self ..
      · exact List.mem_cons_of_mem old (ih h)

end LookUp

theorem entry_set (files : Files) (l m : Location) (e : Entry) :
    entry? (files.set l e) m = if m = l then some e else files.entry? m := by
  change lookUp (files.set l e).entries m = if m = l then some e else lookUp files.entries m
  unfold set
  split
  next h =>
    obtain ⟨old, hold⟩ := Option.isSome_iff_exists.mp h
    change lookUp files.entries l = some old at hold
    rw [lookUp_map, hold]
    rfl
  next h =>
    rw [Option.not_isSome_iff_eq_none] at h
    change lookUp files.entries l = none at h
    rw [lookUp_concat]
    by_cases hm : m = l
    · rw [if_pos hm, if_pos hm.symm, hm, h]
      rfl
    · rw [if_neg hm, if_neg (Ne.symm hm), Option.or_none]

theorem mem_of_found (h : files.entry? l = some e) : (l, e) ∈ files.entries := mem_of_lookUp h

theorem isBelow_iff {above : Location} :
    isBelow above l = true ↔ above <+: l ∧ above.length < l.length := by
  unfold isBelow
  rw [Bool.and_eq_true, decide_eq_true_eq, List.isPrefixOf_iff_prefix]

theorem isDirectory_iff :
    files.isDirectory l = true ↔ l <+: files.directory ∨
      ∃ entry ∈ files.entries, isBelow l entry.1 = true ∨ entry = (l, .directory) := by
  unfold isDirectory
  rw [Bool.or_eq_true, List.any_eq_true, List.isPrefixOf_iff_prefix]
  apply or_congr_right
  apply exists_congr
  intro entry
  obtain ⟨m, e⟩ := entry
  cases e <;> simp

theorem isFile_of_found (h : files.entry? l = some e) (hl : files.isDirectory l = false) :
    e.isFile = true := by
  cases e with
  | directory =>
      have hdirectory : files.isDirectory l = true :=
        isDirectory_iff.mpr (.inr ⟨_, mem_of_found h, .inr rfl⟩)
      rw [hl] at hdirectory
      cases hdirectory
  | bytes | font => rfl

theorem housed_of_found (h : files.entry? l = some e) : files.Housed l := by
  intro above habove
  exact isDirectory_iff.mpr (.inr ⟨_, mem_of_found h, .inl habove⟩)

theorem isDirectory_map (hl : files.isDirectory l = false) (he : e.isFile = true) :
    isDirectory { files with
        entries := files.entries.map fun old => if old.1 == l then (l, e) else old } m =
      files.isDirectory m := by
  have hentry : ∀ old ∈ files.entries,
      ((if old.1 == l then (l, e) else old) = (m, Entry.directory) ↔ old = (m, .directory)) := by
    intro old hold
    by_cases h : old.1 = l
    · rw [if_pos (beq_iff_eq.mpr h)]
      constructor
      · intro hdirectory
        obtain ⟨-, rfl⟩ := Prod.mk.inj hdirectory
        cases he
      · rintro rfl
        -- An entry that makes the location a directory is not there.
        have hdirectory : files.isDirectory l = true :=
          isDirectory_iff.mpr (.inr ⟨_, hold, .inr (by rw [← h])⟩)
        rw [hl] at hdirectory
        cases hdirectory
    · rw [if_neg (by simpa using h)]
  have hplace : ∀ old : Location × Entry,
      (if old.1 == l then (l, e) else old).1 = old.1 := by
    intro old
    split_ifs with h
    · exact (beq_iff_eq.mp h).symm
    · rfl
  rw [Bool.eq_iff_iff, isDirectory_iff, isDirectory_iff]
  apply or_congr_right
  simp only [List.mem_map, exists_exists_and_eq_and, hplace]
  apply exists_congr
  intro old
  exact and_congr_right fun hold => or_congr_right (hentry old hold)

theorem isDirectory_concat (hl : files.Housed l) (he : e.isFile = true) :
    isDirectory { files with entries := files.entries ++ [(l, e)] } m = files.isDirectory m := by
  rw [Bool.eq_iff_iff]
  constructor
  · intro h
    rcases isDirectory_iff.mp h with hleads | ⟨entry, hmem, hentry⟩
    · exact isDirectory_iff.mpr (.inl hleads)
    · rcases List.mem_append.mp hmem with hold | hnew
      · exact isDirectory_iff.mpr (.inr ⟨entry, hold, hentry⟩)
      · obtain rfl := List.mem_singleton.mp hnew
        rcases hentry with hbelow | hdirectory
        · exact hl m hbelow
        · obtain ⟨-, rfl⟩ := Prod.mk.inj hdirectory
          cases he
  · intro h
    rcases isDirectory_iff.mp h with hleads | ⟨entry, hmem, hentry⟩
    · exact isDirectory_iff.mpr (.inl hleads)
    · exact isDirectory_iff.mpr (.inr ⟨entry, List.mem_append_left _ hmem, hentry⟩)

/-- A file in an existing directory makes nothing a directory. -/
theorem isDirectory_set (hl : files.isDirectory l = false) (hhoused : files.Housed l)
    (he : e.isFile = true) : (files.set l e).isDirectory m = files.isDirectory m := by
  unfold set
  split
  · exact isDirectory_map hl he
  · exact isDirectory_concat hhoused he

/-- Writing sets the entry of a file to one with more bytes. -/
theorem append_eq_set (h : files.entry? l = some e) (he : e.isFile = true)
    (more : List UInt8) :
    ∃ e', files.append l more = files.set l e' ∧ e'.isFile = true ∧
      e'.content = e.content ++ more := by
  unfold append
  rw [h]
  cases e with
  | directory => cases he
  | bytes content => exact ⟨_, rfl, rfl, rfl⟩
  | font font appended =>
      refine ⟨_, rfl, rfl, ?_⟩
      unfold Entry.content fontBytes
      rw [List.append_assoc]

theorem contentAt_of_found (h : files.entry? l = some e) : files.contentAt l = e.content := by
  unfold contentAt
  rw [h]
  rfl

theorem append_holdsFile (h : files.HoldsFile l) (more : List UInt8) :
    (files.append l more).HoldsFile l ∧
      (files.append l more).contentAt l = files.contentAt l ++ more := by
  obtain ⟨e, hentry, he⟩ := h
  obtain ⟨e', happend, he', hcontent⟩ := append_eq_set hentry he more
  have hset : entry? (files.set l e') l = some e' := by
    rw [entry_set, if_pos rfl]
  rw [happend]
  constructor
  · exact ⟨e', hset, he'⟩
  · rw [contentAt_of_found hset, contentAt_of_found hentry, hcontent]

/-- Writing to another file leaves a file as it is. -/
theorem append_other (hm : m ≠ l) (h : files.HoldsFile l) (more : List UInt8) :
    (files.append m more).HoldsFile l ∧
      (files.append m more).contentAt l = files.contentAt l := by
  have hentry : entry? (files.append m more) l = files.entry? l := by
    unfold append
    split
    · rw [entry_set, if_neg hm.symm]
    · rw [entry_set, if_neg hm.symm]
    · rfl
  unfold HoldsFile contentAt
  rw [hentry]
  exact ⟨h, rfl⟩

end Files

end VectorPath
