import Mathlib.Data.Nat.Notation
import Mathlib.Order.Nat
import VectorPath.Text.Newlines

/-!
# Texts with unified line ends

Unifying the line ends of a text changes nothing but its carriage returns, each of which becomes a
line feed or is dropped in front of one. A reader that makes no difference between the two therefore
goes through both texts in step.
-/

namespace VectorPath.Text

variable {c : Char} {cs : List Char} {p : Char → Bool}

theorem unifyNewlines_cons (hc : c ≠ '\r') (rest : List Char) :
    unifyNewlines (c :: rest) = c :: unifyNewlines rest := by
  rw [unifyNewlines]
  · rintro _ rfl -
    exact hc rfl
  · exact hc

/-- A carriage return is dropped or becomes a line feed. -/
theorem unifyNewlines_return (rest : List Char) :
    ∃ ds, unifyNewlines ('\r' :: rest) = '\n' :: ds ∧
      (unifyNewlines rest = '\n' :: ds ∨ unifyNewlines rest = ds) := by
  by_cases hfeed : ∃ more, rest = '\n' :: more
  · obtain ⟨more, rfl⟩ := hfeed
    exact ⟨_, rfl, .inl (unifyNewlines_cons (by decide) more)⟩
  · refine ⟨unifyNewlines rest, ?_, .inr rfl⟩
    rw [unifyNewlines]
    exact fun more h => hfeed ⟨more, h⟩

theorem unifyNewlines_eq_nil : unifyNewlines cs = [] ↔ cs = [] := by
  unfold unifyNewlines
  split <;> simp

theorem unifyNewlines_eq_cons {d : Char} {ds : List Char} (h : unifyNewlines cs = d :: ds)
    (hd : d ≠ '\n') : ∃ rest, cs = d :: rest ∧ ds = unifyNewlines rest := by
  rcases cs with _ | ⟨c, rest⟩
  · cases h
  · by_cases hc : c = '\r'
    · subst hc
      obtain ⟨_, hreturn, -⟩ := unifyNewlines_return rest
      rw [hreturn] at h
      exact absurd (List.cons.inj h).1.symm hd
    · rw [unifyNewlines_cons hc] at h
      obtain ⟨rfl, rfl⟩ := List.cons.inj h
      exact ⟨rest, rfl, rfl⟩

theorem length_unifyNewlines_le (cs : List Char) : (unifyNewlines cs).length ≤ cs.length := by
  fun_induction unifyNewlines cs with
  | case1 => exact le_rfl
  | case2 rest ih => simp; omega
  | case3 rest _ ih => simpa using ih
  | case4 c rest _ _ ih => simpa using ih

theorem head?_unifyNewlines (hreturn : c ≠ '\r') (hfeed : c ≠ '\n') (cs : List Char) :
    (unifyNewlines cs).head? = some c ↔ cs.head? = some c := by
  fun_cases unifyNewlines cs <;> simp [Ne.symm hreturn, Ne.symm hfeed]

theorem takeWhile_unifyNewlines (hreturn : p '\r' = false) (hfeed : p '\n' = false)
    (cs : List Char) : (unifyNewlines cs).takeWhile p = cs.takeWhile p := by
  fun_induction unifyNewlines cs with
  | case1 => rfl
  | case2 rest ih => simp [hreturn, hfeed]
  | case3 rest _ ih => simp [hreturn, hfeed]
  | case4 c rest _ _ ih => rw [List.takeWhile_cons, List.takeWhile_cons, ih]

theorem dropWhile_unifyNewlines (hreturn : p '\r' = true) (hfeed : p '\n' = true)
    (cs : List Char) : (unifyNewlines cs).dropWhile p = unifyNewlines (cs.dropWhile p) := by
  fun_induction unifyNewlines cs with
  | case1 => rfl
  | case2 rest ih => simpa [hreturn, hfeed] using ih
  | case3 rest _ ih => simpa [hreturn, hfeed] using ih
  | case4 c rest _ hc ih =>
      rw [List.dropWhile_cons, List.dropWhile_cons, ih]
      split_ifs
      · rfl
      · exact (unifyNewlines_cons hc rest).symm

theorem drop_unifyNewlines {k : ℕ} (h : '\r' ∉ cs.take k) :
    (unifyNewlines cs).drop k = unifyNewlines (cs.drop k) := by
  induction k generalizing cs with
  | zero => rfl
  | succ k ih =>
      rcases cs with _ | ⟨c, rest⟩
      · rfl
      · rw [List.take_succ_cons, List.mem_cons, not_or] at h
        rw [unifyNewlines_cons (Ne.symm h.1)]
        exact ih h.2

section Append

variable {word rest : List Char}

theorem unifyNewlines_append (h : '\r' ∉ word) :
    unifyNewlines (word ++ rest) = word ++ unifyNewlines rest := by
  induction word with
  | nil => rfl
  | cons c word ih =>
      rw [List.mem_cons, not_or] at h
      rw [List.cons_append, unifyNewlines_cons (Ne.symm h.1), ih h.2, List.cons_append]

theorem unifyNewlines_eq_append {ds : List Char} (h : unifyNewlines cs = word ++ ds)
    (hword : '\n' ∉ word) : ∃ rest, cs = word ++ rest ∧ ds = unifyNewlines rest := by
  induction word generalizing cs with
  | nil => exact ⟨cs, rfl, h.symm⟩
  | cons c word ih =>
      rw [List.mem_cons, not_or] at hword
      obtain ⟨later, rfl, hlater⟩ := unifyNewlines_eq_cons h (Ne.symm hword.1)
      obtain ⟨rest, rfl, hds⟩ := ih hlater.symm hword.2
      exact ⟨rest, rfl, hds⟩

theorem length_unifyNewlines_cons (c : Char) (rest : List Char) :
    (unifyNewlines rest).length ≤ (unifyNewlines (c :: rest)).length := by
  by_cases hc : c = '\r'
  · subst hc
    obtain ⟨ds, hreturn, hrest⟩ := unifyNewlines_return rest
    rw [hreturn]
    rcases hrest with hrest | hrest
    · rw [hrest]
    · rw [hrest]
      exact Nat.le_succ _
  · rw [unifyNewlines_cons hc]
    exact Nat.le_succ _

theorem length_unifyNewlines_suffix (h : rest <:+ cs) :
    (unifyNewlines rest).length ≤ (unifyNewlines cs).length := by
  obtain ⟨taken, rfl⟩ := h
  induction taken with
  | nil => exact le_rfl
  | cons c taken ih => exact ih.trans (length_unifyNewlines_cons c (taken ++ rest))

end Append

end VectorPath.Text
