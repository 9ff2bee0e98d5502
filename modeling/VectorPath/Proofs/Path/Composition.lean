import VectorPath.Proofs.Path.Failure

/-!
# Paths one after the other

A path is written item by item, so the text of two lists of items one after the other is the two
texts with a space between them. The first item that fails stops the path with its failure, and no
item behind it is looked at: a value that is no command is only refused if everything before it is
written.
-/

namespace VectorPath

theorem joinWith_eq_intercalate (separator : String) (ts : List String) :
    joinWith separator ts = separator.intercalate ts := by
  induction ts with
  | nil => rw [String.intercalate_nil, joinWith]
  | cons t ts ih =>
      cases ts with
      | nil => rw [String.intercalate_singleton, joinWith]
      | cons u us =>
          rw [String.intercalate_cons_cons, ← ih, joinWith]
          simp

/-- A value that is not a command of any of the twenty forms. -/
def Value.IsNoCommand (v : Value) : Prop := ∀ c : Command, v ≠ c.toValue

theorem Command.ofValue?_eq_none {v : Value} : ofValue? v = none ↔ v.IsNoCommand := by
  constructor
  · rintro h c rfl
    rw [ofValue?_toValue] at h
    cases h
  · intro h
    rcases hv : ofValue? v with _ | c
    · rfl
    · exact absurd (toValue_of_ofValue? hv).symm (h c)

namespace WritingSettings

section Items

variable {s : WritingSettings} {v : Value} {xs ys items : List Value} {f : Failure}
  {shown text : String}

theorem item_of_isNoCommand (h : v.IsNoCommand) :
    s.item v =
      if v.holdsLongInteger then mishap .integerTextTooLong
      else mishap (.notACommand v.display) := by
  unfold item
  rw [Command.ofValue?_eq_none.mpr h]
  unfold Value.shown
  cases v.holdsLongInteger <;> rfl

theorem number_ne_notACommand : s.number v ≠ .error (.mishap (.notACommand shown)) := by
  intro h
  unfold number allow round numberText integerText at h
  rcases bind_eq_error.mp h with hallow | ⟨-, -, h⟩
  · split at hallow
    next => split at hallow <;> cases hallow
    next => cases hallow
  · rcases bind_eq_error.mp h with hround | ⟨w, -, h⟩
    · split at hround <;> cases hround
    · split at h
      next => split at h <;> cases h
      all_goals cases h

/-- Only a value that is no command is refused as such, and only if it can be shown. -/
theorem item_eq_notACommand :
    s.item v = mishap (.notACommand shown) ↔
      v.IsNoCommand ∧ v.holdsLongInteger = false ∧ shown = v.display := by
  constructor
  · intro h
    rcases hv : Command.ofValue? v with _ | c
    · have hnone : v.IsNoCommand := Command.ofValue?_eq_none.mp hv
      rw [item_of_isNoCommand hnone] at h
      split at h
      next => cases h
      next hshort =>
        injection h with h
        injection h with h
        injection h with h
        exact ⟨hnone, Bool.eq_false_of_not_eq_true hshort, h.symm⟩
    · unfold item at h
      rw [hv] at h
      obtain ⟨w, -, hw⟩ := exists_mem_of_stopsAt (command_eq_error.mp h)
      exact absurd hw number_ne_notACommand
  · rintro ⟨hnone, hshort, rfl⟩
    rw [item_of_isNoCommand hnone, hshort]
    rfl

/-- Everything before an item is written, so that it is the next one to be written. -/
def Reaches (s : WritingSettings) (items : List Value) (v : Value) : Prop :=
  ∃ done rest, items = done ++ v :: rest ∧ ∀ w ∈ done, ∃ t, s.item w = .ok t

theorem pathOf_eq_ok :
    s.pathOf (.list items) = .ok text ↔
      ∃ tokens, items.mapM s.item = .ok tokens ∧ text = joinWith " " tokens := by
  change s.path items = .ok text ↔ _
  unfold path
  rw [bind_eq_ok]
  simp only [pure, Except.pure, Except.ok.injEq, eq_comm]

theorem pathOf_eq_error : s.pathOf (.list items) = .error f ↔ StopsAt s.item f items := by
  change s.path items = .error f ↔ _
  unfold path
  rw [bind_pure_eq_error, mapM_eq_error]

theorem stopsAt_item_iff :
    StopsAt s.item f items ↔ ∃ v, s.Reaches items v ∧ s.item v = .error f := by
  rw [stopsAt_iff]
  constructor
  · rintro ⟨done, v, rest, hitems, hdone, hfail⟩
    exact ⟨v, ⟨done, rest, hitems, hdone⟩, hfail⟩
  · rintro ⟨v, ⟨done, rest, hitems, hdone⟩, hfail⟩
    exact ⟨done, v, rest, hitems, hdone, hfail⟩

/-- The text of a path is the texts of its items with spaces between them, and its failure is the
failure of the item that it reaches last. -/
structure WrittenInOrder (s : WritingSettings) (items : List Value) : Prop where
  written (text : String) : s.pathOf (.list items) = .ok text ↔
    ∃ tokens, List.Forall₂ (fun v t => s.item v = .ok t) items tokens ∧ text = joinWith " " tokens
  stopped (f : Failure) : s.pathOf (.list items) = .error f ↔
    ∃ v, s.Reaches items v ∧ s.item v = .error f
  refused (shown : String) : s.pathOf (.list items) = mishap (.notACommand shown) ↔
    ∃ v, s.Reaches items v ∧ v.IsNoCommand ∧ v.holdsLongInteger = false ∧ shown = v.display
  notShown : (∃ v, s.Reaches items v ∧ v.IsNoCommand ∧ v.holdsLongInteger = true) →
    s.pathOf (.list items) = mishap .integerTextTooLong

theorem writtenInOrder (s : WritingSettings) (items : List Value) : s.WrittenInOrder items where
  written text := by
    rw [pathOf_eq_ok]
    simp only [mapM_eq_ok]
  stopped f := pathOf_eq_error.trans stopsAt_item_iff
  refused shown := by
    simp only [mishap, pathOf_eq_error, stopsAt_item_iff]
    exact exists_congr fun v => and_congr_right fun _ => item_eq_notACommand
  notShown := by
    rintro ⟨v, hreaches, hnone, hlong⟩
    refine pathOf_eq_error.mpr (stopsAt_item_iff.mpr ⟨v, hreaches, ?_⟩)
    rw [item_of_isNoCommand hnone, hlong]
    rfl

/-- Two paths make one: the first failure counts, and there is a space between the two texts if
there are items in both. -/
structure Composes (s : WritingSettings) (xs ys : List Value) : Prop where
  firstFails (f : Failure) : s.pathOf (.list xs) = .error f →
    s.pathOf (.list (xs ++ ys)) = .error f
  secondFails (t : String) (f : Failure) : s.pathOf (.list xs) = .ok t →
    s.pathOf (.list ys) = .error f → s.pathOf (.list (xs ++ ys)) = .error f
  bothWritten (t u : String) : s.pathOf (.list xs) = .ok t → s.pathOf (.list ys) = .ok u →
    s.pathOf (.list (xs ++ ys)) = .ok (if xs = [] then u else if ys = [] then t else t ++ " " ++ u)

theorem tokens_eq_nil {tokens : List String} (h : items.mapM s.item = .ok tokens) :
    tokens = [] ↔ items = [] := by
  have hlength := (mapM_eq_ok.mp h).length_eq
  rw [← List.length_eq_zero_iff, ← hlength, List.length_eq_zero_iff]

theorem composes (s : WritingSettings) (xs ys : List Value) : s.Composes xs ys where
  firstFails f hxs := by
    rw [pathOf_eq_error] at hxs ⊢
    exact stopsAt_append.mpr (.inl hxs)
  secondFails t f hxs hys := by
    obtain ⟨tokens, htokens, -⟩ := pathOf_eq_ok.mp hxs
    rw [pathOf_eq_error] at hys ⊢
    exact stopsAt_append.mpr (.inr ⟨⟨tokens, htokens⟩, hys⟩)
  bothWritten t u hxs hys := by
    obtain ⟨ts, hts, rfl⟩ := pathOf_eq_ok.mp hxs
    obtain ⟨us, hus, rfl⟩ := pathOf_eq_ok.mp hys
    have happend : (xs ++ ys).mapM s.item = .ok (ts ++ us) := by
      rw [List.mapM_append, hts, hus]
      rfl
    refine pathOf_eq_ok.mpr ⟨ts ++ us, happend, ?_⟩
    simp only [joinWith_eq_intercalate, ← tokens_eq_nil hts, ← tokens_eq_nil hus]
    split_ifs with hxs hys
    · rw [hxs, List.nil_append]
    · rw [hys, List.append_nil]
    · exact (String.intercalate_append_of_ne_nil hxs hys).symm

end Items

/-- Under all settings, two lists of any values are written as one path by writing the one and then
the other, and in every path the first item that fails decides. -/
theorem paths_compose (s : WritingSettings) :
    (∀ xs ys, s.Composes xs ys) ∧ ∀ items, s.WrittenInOrder items :=
  ⟨s.composes, s.writtenInOrder⟩

/-- A value that is no command is not always refused as one where the path reaches it: an integer
that is too long for a text cannot be shown. -/
theorem not_every_noCommand_refused :
    ¬ ∀ (s : WritingSettings) (items : List Value) (v : Value), s.Reaches items v →
      v.IsNoCommand → ∃ shown, s.pathOf (.list items) = mishap (.notACommand shown) := by
  intro h
  have hnone : (Value.int (10 ^ 4300)).IsNoCommand := Command.ofValue?_eq_none.mp rfl
  have hlong : (Value.int (10 ^ 4300)).holdsLongInteger = true := by
    change Layout.isTooLong (10 ^ 4300) = true
    decide +kernel
  have hreaches : Reaches {} [.int (10 ^ 4300)] (.int (10 ^ 4300)) := ⟨[], [], rfl, by simp⟩
  obtain ⟨shown, hshown⟩ := h _ _ _ hreaches hnone
  rw [(writtenInOrder _ _).notShown ⟨_, hreaches, hnone, hlong⟩] at hshown
  cases hshown

end WritingSettings

end VectorPath
