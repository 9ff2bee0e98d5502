import VectorPath.Number.Basic
import VectorPath.Proofs.Number.Rounding

/-!
# Equality of numbers is equality of exact values

Every number other than `nan` stands for an infinity or for a rational. Two numbers are equal
exactly when they stand for the same, whether they are integers or binary64 numbers, so equality
is an equivalence once `nan` is taken to agree with itself.
-/

namespace VectorPath

inductive Extended
  | nan
  | infinity (negative : Bool)
  | rational (value : ℚ)

namespace Binary64

def exact : Binary64 → Extended
  | .nan => .nan
  | .infinity s => .infinity s
  | .finite s m e _ => .rational (signed s m * 2 ^ e)

theorem signed_cast (s : Bool) (m : ℕ) : ((signed s m : ℤ) : ℚ) = if s then -(m : ℚ) else m := by
  unfold signed
  split_ifs <;> simp

theorem signed_eq_zero_iff (s : Bool) (m : ℕ) : signed s m = 0 ↔ m = 0 := by
  unfold signed
  split_ifs <;> omega

theorem signed_mul (s : Bool) (m n : ℕ) : signed s (m * n) = signed s m * n := by
  unfold signed
  split_ifs <;> push_cast
  · ring
  · rfl

theorem dvd_signed_iff (s : Bool) (d m : ℕ) : (d : ℤ) ∣ signed s m ↔ d ∣ m := by
  unfold signed
  split_ifs
  · rw [dvd_neg, Int.natCast_dvd_natCast]
  · exact Int.natCast_dvd_natCast

/-- A finite number is the integer that its value is. -/
theorem toInt?_eq_some_iff (x : Binary64) (i : ℤ) :
    x.toInt? = some i ↔ x.exact = .rational i := by
  rcases x with _ | s | ⟨s, m, e, h⟩
  · simp [toInt?, exact]
  · simp [toInt?, exact]
  rcases e with k | k
  · have hvalue : ((signed s m : ℤ) : ℚ) * 2 ^ (Int.ofNat k) = (signed s (m * 2 ^ k) : ℤ) := by
      rw [signed_mul, Int.ofNat_eq_natCast, zpow_natCast]
      push_cast
      rfl
    simp only [toInt?, exact, hvalue, Option.some.injEq, Extended.rational.injEq, Int.cast_inj]
  · have hpow : (0 : ℚ) < 2 ^ (k + 1) := by positivity
    simp only [toInt?, exact, Extended.rational.injEq, zpow_negSucc]
    rw [← div_eq_mul_inv, div_eq_iff hpow.ne']
    have hcast : ((signed s m : ℤ) : ℚ) = i * 2 ^ (k + 1) ↔
        signed s m = i * (2 ^ (k + 1) : ℕ) := by
      push_cast
      exact_mod_cast Iff.rfl
    rw [hcast]
    split_ifs with hmod
    · obtain ⟨q, rfl⟩ := Nat.dvd_of_mod_eq_zero hmod
      rw [Option.some.injEq, Nat.mul_div_cancel_left q (by positivity), mul_comm, signed_mul]
      constructor
      · rintro rfl
        rfl
      · exact fun heq => mul_right_cancel₀ (by positivity) heq
    · simp only [false_iff]
      intro heq
      have hdvd := (dvd_signed_iff s (2 ^ (k + 1)) m).mp ⟨i, by rw [heq, mul_comm]⟩
      exact hmod (Nat.mod_eq_zero_of_dvd hdvd)

/-- Finite numbers of one value are one number, zeros apart. -/
theorem finite_unique {s t : Bool} {m n : ℕ} {e f : ℤ} (h : Canonical m e) (h' : Canonical n f)
    (hm : m ≠ 0) (hv : ((signed s m : ℤ) : ℚ) * 2 ^ e = (signed t n : ℤ) * 2 ^ f) :
    Binary64.finite s m e h = .finite t n f h' := by
  have he := two_zpow_pos e
  have hf := two_zpow_pos f
  have hmq : (0 : ℚ) < m := by exact_mod_cast Nat.pos_of_ne_zero hm
  have hn₀ : (0 : ℚ) ≤ n := by positivity
  have hpos := mul_pos hmq he
  have hnonneg := mul_nonneg hn₀ hf.le
  have hn : n ≠ 0 := by
    rintro rfl
    rw [(signed_eq_zero_iff t 0).mpr rfl, Int.cast_zero, zero_mul, mul_eq_zero] at hv
    have hz := hv.resolve_right he.ne'
    exact hm ((signed_eq_zero_iff s m).mp (by exact_mod_cast hz))
  have hst : s = t := by
    rcases s <;> rcases t
    · rfl
    · simp only [signed_cast, Bool.false_eq_true, if_true, if_false] at hv
      linarith
    · simp only [signed_cast, Bool.false_eq_true, if_true, if_false] at hv
      linarith
    · rfl
  subst hst
  have hvalue : (m : ℚ) * 2 ^ e = n * 2 ^ f := by
    rcases s <;> simp only [signed_cast, Bool.false_eq_true, if_true, if_false] at hv <;> linarith
  obtain ⟨rfl, rfl⟩ := canonical_unique h h' hm hn hvalue
  rfl

theorem sameValue_iff (x y : Binary64) :
    x.sameValue y = true ↔ x.exact = y.exact ∧ x.exact ≠ .nan := by
  rcases x with _ | s | ⟨s, m, e, h⟩ <;> rcases y with _ | t | ⟨t, n, f, h'⟩
  · simp [sameValue, exact]
  · simp [sameValue, exact]
  · simp [sameValue, exact]
  · simp [sameValue, exact]
  · simp [sameValue, exact, isZero]
  · simp [sameValue, exact, isZero]
  · simp [sameValue, exact]
  · simp [sameValue, exact, isZero]
  · simp only [sameValue, exact, isZero, Bool.or_eq_true, Bool.and_eq_true, beq_iff_eq,
      Extended.rational.injEq, ne_eq, reduceCtorEq, not_false_eq_true, and_true]
    constructor
    · rintro (⟨rfl, rfl⟩ | heq)
      · simp [signed]
      · cases heq
        rfl
    · intro hv
      by_cases hm : m = 0
      · have hz : ((signed t n : ℤ) : ℚ) * 2 ^ f = 0 := by
          rw [← hv, hm]
          simp [signed]
        have hn : ((signed t n : ℤ) : ℚ) = 0 :=
          (mul_eq_zero.mp hz).resolve_right (two_zpow_pos f).ne'
        exact Or.inl ⟨hm, (signed_eq_zero_iff t n).mp (by exact_mod_cast hn)⟩
      · exact Or.inr (finite_unique h h' hm hv)

end Binary64

namespace Number

def exact : Number → Extended
  | .int i => .rational i
  | .float x => x.exact

theorem sameValue_iff (a b : Number) :
    a.sameValue b = true ↔ a.exact = b.exact ∧ a.exact ≠ .nan := by
  rcases a with i | x <;> rcases b with j | y
  · simp [sameValue, exact]
  · simp only [sameValue, exact, beq_iff_eq, Binary64.toInt?_eq_some_iff, ne_eq, reduceCtorEq,
      not_false_eq_true, and_true]
    exact eq_comm
  · simp only [sameValue, exact, beq_iff_eq, Binary64.toInt?_eq_some_iff]
    constructor
    · intro h
      exact ⟨h, by rw [h]; simp⟩
    · exact And.left
  · exact Binary64.sameValue_iff x y

def Agrees (a b : Number) : Prop := a.sameValue b = true ∨ a = .float .nan ∧ b = .float .nan

theorem exact_eq_nan_iff (a : Number) : a.exact = .nan ↔ a = .float .nan := by
  rcases a with i | x
  · simp [exact]
  · rcases x <;> simp [exact, Binary64.exact]

theorem agrees_iff (a b : Number) : a.Agrees b ↔ a.exact = b.exact := by
  unfold Agrees
  rw [sameValue_iff, ← exact_eq_nan_iff, ← exact_eq_nan_iff]
  constructor
  · rintro (⟨h, -⟩ | ⟨h₁, h₂⟩)
    · exact h
    · rw [h₁, h₂]
  · intro h
    by_cases hnan : a.exact = .nan
    · exact Or.inr ⟨hnan, h ▸ hnan⟩
    · exact Or.inl ⟨h, hnan⟩

end Number

end VectorPath
