import Mathlib.Data.List.Basic
import VectorPath.Files.Basic

/-!
# Places and their names

Reading a text as a place leaves out what says nothing: empty parts, parts that are a single dot,
and slashes beyond the second in front. A place without all this is written so that its name reads
back as the place. So the name of a place that was read is a fixed point: reading it again and
writing it again gives the same name. The full place of a place has no dots that would lead out of a
directory, so it is its own full place, and a log file is at one location under all its names.
-/

namespace VectorPath

theorem joinWith_cons_cons (separator s t : String) (rest : List String) :
    joinWith separator (s :: t :: rest) = s ++ separator ++ joinWith separator (t :: rest) := rfl

namespace Place

variable {p : Place}

/-- A place as reading makes it. -/
structure IsNormal (p : Place) : Prop where
  root : p.root = "" ∨ p.root = "/" ∨ p.root = "//"
  parts : ∀ part ∈ p.parts, part ≠ "" ∧ part ≠ "." ∧ '/' ∉ part.toList

theorem rootOf_cases (cs : List Char) : rootOf cs = "" ∨ rootOf cs = "/" ∨ rootOf cs = "//" := by
  unfold rootOf
  split <;> simp

theorem slash_not_mem_segments {current : List Char} (h : '/' ∉ current) (cs : List Char) :
    ∀ part ∈ segments cs current, '/' ∉ part.toList := by
  induction cs generalizing current with
  | nil =>
      intro part hpart
      rw [List.mem_singleton.mp hpart, String.toList_ofList, List.mem_reverse]
      exact h
  | cons c rest ih =>
      unfold segments
      split_ifs with hc
      · intro part hpart
        rcases List.mem_cons.mp hpart with rfl | hrest
        · rw [String.toList_ofList, List.mem_reverse]
          exact h
        · exact ih List.not_mem_nil part hrest
      · exact ih fun hmem => (List.mem_cons.mp hmem).elim (fun heq => hc heq.symm) h

/-- Whatever its text, a place that was read is normal. -/
theorem ofText_isNormal (s : String) : (ofText s).IsNormal where
  root := rootOf_cases s.toList
  parts := by
    intro part hpart
    obtain ⟨hmem, hkept⟩ := List.mem_filter.mp hpart
    rw [Bool.and_eq_true, bne_iff_ne, bne_iff_ne] at hkept
    exact ⟨hkept.1, hkept.2, slash_not_mem_segments List.not_mem_nil _ part hmem⟩

theorem segments_append {part : List Char} (h : '/' ∉ part) (rest current : List Char) :
    segments (part ++ rest) current = segments rest (part.reverse ++ current) := by
  induction part generalizing current with
  | nil => rfl
  | cons c part ih =>
      obtain ⟨hc, hpart⟩ := not_or.mp (mt List.mem_cons.mpr h)
      rw [List.cons_append, segments, if_neg (Ne.symm hc), ih hpart, List.reverse_cons,
        List.append_assoc, List.singleton_append]

/-- Joined parts are split into the same parts. -/
theorem segments_joinWith {parts : List String} (hne : parts ≠ [])
    (h : ∀ part ∈ parts, '/' ∉ part.toList) :
    segments (joinWith "/" parts).toList [] = parts := by
  induction parts with
  | nil => exact absurd rfl hne
  | cons part rest ih =>
      have hpart := h part List.mem_cons_self
      cases rest with
      | nil =>
          have hsplit := segments_append hpart [] []
          rw [List.append_nil, List.append_nil] at hsplit
          rw [joinWith, hsplit, segments, List.reverse_reverse, String.ofList_toList]
      | cons next rest =>
          have hrest := ih (List.cons_ne_nil _ _) fun p hp => h p (List.mem_cons_of_mem _ hp)
          rw [joinWith_cons_cons, String.toList_append, String.toList_append, List.append_assoc,
            segments_append hpart]
          change segments ('/' :: (joinWith "/" (next :: rest)).toList) _ = _
          rw [segments, if_pos rfl, hrest, List.append_nil, List.reverse_reverse,
            String.ofList_toList]

/-- What the joined parts begin with is not a slash. -/
theorem head?_joinWith {part : String} (hne : part ≠ "") (h : '/' ∉ part.toList)
    (rest : List String) : ∃ c cs, c ≠ '/' ∧ (joinWith "/" (part :: rest)).toList = c :: cs := by
  obtain ⟨c, cs, hpart⟩ := List.exists_cons_of_ne_nil (mt String.toList_eq_nil_iff.mp hne)
  rw [hpart] at h
  refine ⟨c, ?_⟩
  have hc : c ≠ '/' := fun heq => h (heq ▸ List.mem_cons_self)
  cases rest with
  | nil => exact ⟨cs, hc, hpart⟩
  | cons next rest =>
      refine ⟨cs ++ ("/" ++ joinWith "/" (next :: rest)).toList, hc, ?_⟩
      rw [joinWith_cons_cons, String.append_assoc, String.toList_append, hpart, List.cons_append]

/-- A root is taken off in front of what does not begin with a slash. -/
theorem ofText_append {root text : String} {c : Char} {cs : List Char}
    (hroot : root = "" ∨ root = "/" ∨ root = "//") (htext : text.toList = c :: cs)
    (hc : c ≠ '/') :
    ofText (root ++ text) =
      ⟨root, (segments text.toList []).filter fun part => part != "" && part != "."⟩ := by
  unfold ofText
  rw [String.toList_append, htext]
  rcases hroot with rfl | rfl | rfl
  · simp [rootOf, hc]
  · simp [rootOf, segments, hc]
  · simp [rootOf, segments, hc]

/-- The name of a normal place reads back as the place. -/
theorem ofText_toText (h : p.IsNormal) : ofText p.toText = p := by
  obtain ⟨root, parts⟩ := p
  obtain ⟨hroot, hparts⟩ := h
  cases parts with
  | nil =>
      rcases hroot with rfl | rfl | rfl
      · rfl
      · rfl
      · rfl
  | cons part rest =>
      have hpart := hparts part List.mem_cons_self
      obtain ⟨c, cs, hc, hjoined⟩ := head?_joinWith hpart.1 hpart.2.2 rest
      have hne : root ++ joinWith "/" (part :: rest) ≠ "" := by
        intro hempty
        have hlist := congrArg String.toList hempty
        rw [String.toList_append, hjoined] at hlist
        exact List.append_ne_nil_of_right_ne_nil _ (List.cons_ne_nil c cs) hlist
      have hkept : (part :: rest).filter (fun part => part != "" && part != ".") =
          part :: rest := by
        rw [List.filter_eq_self]
        intro q hq
        rw [Bool.and_eq_true, bne_iff_ne, bne_iff_ne]
        exact ⟨(hparts q hq).1, (hparts q hq).2.1⟩
      have hsplit := segments_joinWith (List.cons_ne_nil part rest) fun q hq => (hparts q hq).2.2
      unfold toText
      rw [if_neg hne, ofText_append hroot hjoined hc, hsplit, hkept]

end Place

namespace Files

theorem dots_not_mem_next {l : Location} (h : ".." ∉ l) (part : String) : ".." ∉ next l part := by
  unfold next
  split_ifs with hdots
  · exact fun hmem => h (l.dropLast_subset hmem)
  · intro hmem
    rcases List.mem_append.mp hmem with hbefore | hpart
    · exact h hbefore
    · exact hdots (beq_iff_eq.mpr (List.mem_singleton.mp hpart).symm)

theorem dots_not_mem_foldl {l : Location} (h : ".." ∉ l) (parts : List String) :
    ".." ∉ parts.foldl next l := by
  induction parts generalizing l with
  | nil => exact h
  | cons part rest ih => exact ih (dots_not_mem_next h part)

theorem dots_not_mem_plainParts (parts : List String) : ".." ∉ plainParts parts :=
  dots_not_mem_foldl List.not_mem_nil parts

theorem foldl_next {parts : List String} (h : ".." ∉ parts) (l : Location) :
    parts.foldl next l = l ++ parts := by
  induction parts generalizing l with
  | nil => exact (List.append_nil l).symm
  | cons part rest ih =>
      have hpart : next l part = l ++ [part] := by
        unfold next
        rw [if_neg fun hdots => List.ne_of_not_mem_cons h (beq_iff_eq.mp hdots).symm]
      rw [List.foldl_cons, hpart, ih (List.not_mem_of_not_mem_cons h)]
      exact (List.append_cons l part rest).symm

theorem plainParts_plainParts (parts : List String) :
    plainParts (plainParts parts) = plainParts parts :=
  foldl_next (dots_not_mem_plainParts parts) []

theorem absolute_of_rooted (files : Files) {p : Place} (h : p.root ≠ "") :
    files.absolute p = ⟨p.root, plainParts p.parts⟩ := by
  unfold absolute
  rw [if_neg (by simpa using h)]

theorem absolute_absolute (files : Files) (p : Place) :
    files.absolute (files.absolute p) = files.absolute p := by
  by_cases hroot : p.root = ""
  · have hfull : files.absolute p = ⟨"/", plainParts (files.directory ++ p.parts)⟩ := by
      unfold absolute
      rw [if_pos (beq_iff_eq.mpr hroot)]
    have hslash : ("/" : String) ≠ "" := by decide
    rw [hfull, files.absolute_of_rooted hslash, plainParts_plainParts]
  · have hplain : (⟨p.root, plainParts p.parts⟩ : Place).root ≠ "" := hroot
    rw [files.absolute_of_rooted hroot, files.absolute_of_rooted hplain, plainParts_plainParts]

/-- A log file has one location, whether it is named from the working directory or in full. -/
theorem locateFull_absolute (files : Files) (p : Place) :
    files.locateFull (files.absolute p) = files.locateFull p := by
  unfold locateFull fullText
  rw [absolute_absolute]

end Files

end VectorPath
