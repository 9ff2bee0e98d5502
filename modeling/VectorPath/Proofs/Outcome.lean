import Mathlib.Data.List.Forall2

/-!
# Sequences of steps that can fail

When a step follows another one, or one step is made for every item of a list, the result says what
came of each step. A success means that all of them succeeded, and a failure is the failure of one.
-/

namespace VectorPath

section Steps

variable {ε α β : Type} {o : Except ε α} {f : α → Except ε β} {b : β} {e : ε}

theorem bind_eq_ok : o >>= f = .ok b ↔ ∃ a, o = .ok a ∧ f a = .ok b := by
  constructor
  · intro h
    cases o with
    | error e => cases h
    | ok a => exact ⟨a, rfl, h⟩
  · rintro ⟨a, rfl, h⟩
    exact h

theorem bind_eq_error :
    o >>= f = .error e ↔ o = .error e ∨ ∃ a, o = .ok a ∧ f a = .error e := by
  constructor
  · intro h
    cases o with
    | error e' => exact .inl (congrArg _ (Except.error.inj h))
    | ok a => exact .inr ⟨a, rfl, h⟩
  · rintro (rfl | ⟨a, rfl, h⟩)
    · rfl
    · exact h

theorem bind_pure_eq_error {g : α → β} : (do return g (← o)) = .error e ↔ o = .error e := by
  cases o with
  | error e' => exact ⟨congrArg _ ∘ Except.error.inj, congrArg _ ∘ Except.error.inj⟩
  | ok a => exact ⟨nofun, nofun⟩

theorem bind_pure_eq_ok {g : α → β} : (do return g (← o)) = .ok b ↔ ∃ a, o = .ok a ∧ b = g a := by
  rw [bind_eq_ok]
  refine exists_congr fun a => and_congr_right fun _ => ⟨fun h => (Except.ok.inj h).symm, ?_⟩
  rintro rfl
  rfl

theorem mapM_eq_ok {xs : List α} {ys : List β} :
    xs.mapM f = .ok ys ↔ List.Forall₂ (fun x y => f x = .ok y) xs ys := by
  induction xs generalizing ys with
  | nil =>
      rw [List.forall₂_nil_left_iff]
      exact ⟨fun h => (Except.ok.inj h).symm, fun h => by rw [h]; rfl⟩
  | cons x xs ih =>
      rw [List.mapM_cons, List.forall₂_cons_left_iff]
      constructor
      · intro h
        obtain ⟨y, hy, h⟩ := bind_eq_ok.mp h
        obtain ⟨ys, hys, h⟩ := bind_eq_ok.mp h
        exact ⟨y, ys, hy, ih.mp hys, (Except.ok.inj h).symm⟩
      · rintro ⟨y, ys, hy, hys, rfl⟩
        rw [hy, ih.mpr hys]
        rfl

theorem exists_left_of_forall₂ {R : α → β → Prop} {xs : List α} {ys : List β}
    (h : List.Forall₂ R xs ys) : ∀ y ∈ ys, ∃ x ∈ xs, R x y := by
  induction h with
  | nil => simp
  | @cons x y xs ys hxy _ ih =>
      refine List.forall_mem_cons.mpr ⟨⟨x, List.mem_cons_self .., hxy⟩, fun z hz => ?_⟩
      obtain ⟨w, hw, hwz⟩ := ih z hz
      exact ⟨w, List.mem_cons_of_mem x hw, hwz⟩

theorem exists_forall₂ {R : α → β → Prop} {xs : List α} (h : ∀ x ∈ xs, ∃ y, R x y) :
    ∃ ys, List.Forall₂ R xs ys := by
  induction xs with
  | nil => exact ⟨[], .nil⟩
  | cons x xs ih =>
      obtain ⟨y, hy⟩ := h x (List.mem_cons_self ..)
      obtain ⟨ys, hys⟩ := ih fun z hz => h z (List.mem_cons_of_mem x hz)
      exact ⟨y :: ys, .cons hy hys⟩

theorem mapM_congr {g : α → Except ε β} {xs : List α} (h : ∀ x ∈ xs, f x = g x) :
    xs.mapM f = xs.mapM g := by
  induction xs with
  | nil => rfl
  | cons x xs ih =>
      rw [List.mapM_cons, List.mapM_cons, h x (List.mem_cons_self ..),
        ih fun y hy => h y (List.mem_cons_of_mem x hy)]

theorem exists_ok_iff : (∃ a, o = .ok a) ↔ ∀ e, o ≠ .error e := by
  cases o with
  | error e => simp
  | ok a => simp

theorem exists_ok_of_toBool (h : o.toBool = true) : ∃ a, o = .ok a := by
  cases o with
  | error e => cases h
  | ok a => exact ⟨a, rfl⟩

theorem toOption_eq_some {a : α} {o : Except ε α} : o.toOption = some a ↔ o = .ok a := by
  cases o with
  | error e => exact ⟨nofun, nofun⟩
  | ok b => exact ⟨fun h => congrArg _ (Option.some.inj h), fun h => congrArg _ (Except.ok.inj h)⟩

/-- The first item whose step does not succeed fails in this way. -/
inductive StopsAt (f : α → Except ε β) (e : ε) : List α → Prop
  | here {x : α} {rest : List α} : f x = .error e → StopsAt f e (x :: rest)
  | later {x : α} {b : β} {rest : List α} :
      f x = .ok b → StopsAt f e rest → StopsAt f e (x :: rest)

variable {xs ys : List α}

theorem not_stopsAt_nil : ¬ StopsAt f e [] := nofun

theorem stopsAt_cons {x : α} :
    StopsAt f e (x :: xs) ↔ f x = .error e ∨ (∃ b, f x = .ok b) ∧ StopsAt f e xs := by
  constructor
  · intro h
    cases h with
    | here hx => exact .inl hx
    | later hx hxs => exact .inr ⟨⟨_, hx⟩, hxs⟩
  · rintro (hx | ⟨⟨b, hx⟩, hxs⟩)
    · exact .here hx
    · exact .later hx hxs

theorem mapM_eq_error : xs.mapM f = .error e ↔ StopsAt f e xs := by
  induction xs with
  | nil => exact ⟨nofun, nofun⟩
  | cons x xs ih =>
      rw [List.mapM_cons, bind_eq_error, stopsAt_cons, ← ih]
      simp only [bind_pure_eq_error, exists_and_right]

/-- The items before the one that fails all succeed. -/
theorem stopsAt_iff :
    StopsAt f e xs ↔ ∃ done x rest, xs = done ++ x :: rest ∧ (∀ y ∈ done, ∃ b, f y = .ok b) ∧
      f x = .error e := by
  constructor
  · intro h
    induction h with
    | here hx => exact ⟨[], _, _, rfl, by simp, hx⟩
    | later hx _ ih =>
        obtain ⟨done, x, rest, rfl, hdone, hfail⟩ := ih
        exact ⟨_ :: done, x, rest, rfl, List.forall_mem_cons.mpr ⟨⟨_, hx⟩, hdone⟩, hfail⟩
  · rintro ⟨done, x, rest, rfl, hdone, hfail⟩
    induction done with
    | nil => exact .here hfail
    | cons y done ih =>
        obtain ⟨⟨b, hy⟩, hdone⟩ := List.forall_mem_cons.mp hdone
        exact .later hy (ih hdone)

theorem stopsAt_zipIdx {f : α × ℕ → Except ε β} :
    StopsAt f e xs.zipIdx ↔ ∃ done x rest, xs = done ++ x :: rest ∧
      (∀ y ∈ done.zipIdx, ∃ b, f y = .ok b) ∧ f (x, done.length) = .error e := by
  rw [stopsAt_iff]
  constructor
  · rintro ⟨_, _, _, hsplit, hdone, hfail⟩
    obtain ⟨done, tail, rfl, rfl, htail⟩ := List.zipIdx_eq_append_iff.mp hsplit
    obtain ⟨x, rest, rfl, rfl, -⟩ := List.zipIdx_eq_cons_iff.mp htail.symm
    rw [Nat.zero_add] at hfail
    exact ⟨done, x, rest, rfl, hdone, hfail⟩
  · rintro ⟨done, x, rest, rfl, hdone, hfail⟩
    refine ⟨done.zipIdx, (x, done.length), rest.zipIdx (done.length + 1), ?_, hdone, hfail⟩
    rw [List.zipIdx_append, List.zipIdx_cons, Nat.zero_add]

theorem exists_mem_of_stopsAt (h : StopsAt f e xs) : ∃ x ∈ xs, f x = .error e := by
  obtain ⟨done, x, rest, rfl, -, hfail⟩ := stopsAt_iff.mp h
  exact ⟨x, List.mem_append_right done (List.mem_cons_self ..), hfail⟩

theorem exists_ok_of_mem (h : ∀ e, ¬ StopsAt f e xs) : ∀ x ∈ xs, ∃ b, f x = .ok b := by
  induction xs with
  | nil => simp
  | cons x xs ih =>
      simp only [stopsAt_cons, not_or, not_and] at h
      have hx : ∃ b, f x = .ok b := exists_ok_iff.mpr fun e => (h e).1
      exact List.forall_mem_cons.mpr ⟨hx, ih fun e => (h e).2 hx⟩

theorem stopsAt_append :
    StopsAt f e (xs ++ ys) ↔ StopsAt f e xs ∨ (∃ bs, xs.mapM f = .ok bs) ∧ StopsAt f e ys := by
  rw [← mapM_eq_error, ← mapM_eq_error, ← mapM_eq_error, List.mapM_append, bind_eq_error]
  simp only [bind_pure_eq_error, exists_and_right]

/-- Steps that are sequences of steps themselves stop where the whole sequence does. -/
theorem stopsAt_flatMap {γ δ : Type} {g : γ → Except ε δ} {parts : γ → List α}
    (h : ∀ x e, g x = .error e ↔ StopsAt f e (parts x)) {zs : List γ} :
    StopsAt g e zs ↔ StopsAt f e (zs.flatMap parts) := by
  induction zs with
  | nil => exact ⟨nofun, nofun⟩
  | cons z zs ih =>
      have hok : (∃ d, g z = .ok d) ↔ ∃ bs, (parts z).mapM f = .ok bs := by
        simp only [exists_ok_iff, ne_eq, h, mapM_eq_error]
      rw [List.flatMap_cons, stopsAt_append, ← h, ← hok, ← ih]
      exact stopsAt_cons

end Steps

section Results

variable {ε α β : Type} {o : Except ε α} {f : α → Except ε β} {P P' : α → Prop} {Q : β → Prop}

/-- A step succeeds, and its result has a property. -/
def SucceedsWith (P : α → Prop) (o : Except ε α) : Prop := ∃ a, o = .ok a ∧ P a

theorem succeedsWith_ok {a : α} (h : P a) : SucceedsWith P (.ok a : Except ε α) := ⟨a, rfl, h⟩

namespace SucceedsWith

theorem imp (h : SucceedsWith P o) (himp : ∀ a, P a → P' a) : SucceedsWith P' o := by
  obtain ⟨a, rfl, ha⟩ := h
  exact succeedsWith_ok (himp a ha)

theorem bind (h : SucceedsWith P o) (hf : ∀ a, P a → SucceedsWith Q (f a)) :
    SucceedsWith Q (o >>= f) := by
  obtain ⟨a, rfl, ha⟩ := h
  exact hf a ha

theorem mapM {xs : List α} (h : ∀ x ∈ xs, SucceedsWith Q (f x)) :
    SucceedsWith (fun ys => ys.length = xs.length ∧ ∀ y ∈ ys, Q y) (xs.mapM f) := by
  induction xs with
  | nil => exact succeedsWith_ok ⟨rfl, by simp⟩
  | cons x xs ih =>
      rw [List.mapM_cons]
      apply (h x (List.mem_cons_self ..)).bind
      intro y hy
      apply (ih fun z hz => h z (List.mem_cons_of_mem x hz)).bind
      rintro ys ⟨hlength, hys⟩
      exact succeedsWith_ok ⟨congrArg Nat.succ hlength, List.forall_mem_cons.mpr ⟨hy, hys⟩⟩

end SucceedsWith

end Results

end VectorPath
