import VectorPath.Proofs.Number.Rounding
import VectorPath.Proofs.Outcome
import VectorPath.Value.Arithmetic

/-!
# Sums and products of bounded numbers

A sum or a product of numbers fails only when one of them is an integer that is too large for a
binary64 number. So it succeeds for integers of fewer than a thousand bits, and the bits of a result
are counted from those of the operands. Binary64 numbers never fail and count for nothing.
-/

namespace VectorPath

theorem Binary64.exists_ofInt {i : ℤ} {bits : ℕ} (h : i.natAbs ≤ 2 ^ bits) (hbits : bits ≤ 999) :
    ∃ x, ofInt? i = some x := by
  have hlt : (i.natAbs : ℚ) / (1 : ℕ) < 2 ^ (1000 : ℤ) := by
    calc (i.natAbs : ℚ) / (1 : ℕ) = i.natAbs := by rw [Nat.cast_one, div_one]
      _ ≤ (2 ^ bits : ℕ) := Nat.cast_le.mpr h
      _ = 2 ^ (bits : ℤ) := by rw [Nat.cast_pow, Nat.cast_ofNat, zpow_natCast]
      _ < 2 ^ (1000 : ℤ) := zpow_lt_zpow_right₀ (by norm_num) (by omega)
  obtain ⟨m, e, hcanonical, heq⟩ := ofRatio_finite Nat.one_pos hlt (i < 0)
  unfold ofInt?
  rw [heq]
  exact ⟨_, rfl⟩

namespace Number

/-- An integer of at most so many bits, or a binary64 number. -/
def Bounded (bits : ℕ) : Number → Prop
  | .int i => i.natAbs ≤ 2 ^ bits
  | .float _ => True

variable {m n : Number} {a b bits : ℕ}

instance : Decidable (n.Bounded bits) :=
  match n with
  | .int i => inferInstanceAs (Decidable (i.natAbs ≤ 2 ^ bits))
  | .float _ => inferInstanceAs (Decidable True)

theorem Bounded.mono (h : n.Bounded a) (hab : a ≤ b) : n.Bounded b := by
  cases n with
  | int i => exact le_trans h (Nat.pow_le_pow_right two_pos hab)
  | float x => trivial

theorem exists_toFloat (h : n.Bounded bits) (hbits : bits ≤ 999) : ∃ x, n.toFloat? = some x := by
  cases n with
  | int i => exact Binary64.exists_ofInt h hbits
  | float x => exact ⟨x, rfl⟩

/-- An operation succeeds on bounded numbers if it is an operation on integers that keeps a
bound. -/
theorem exists_combine {exact : ℤ → ℤ → ℤ} (rounded : Binary64 → Binary64 → Binary64)
    (hm : m.Bounded a) (hn : n.Bounded b) (ha : a ≤ 999) (hb : b ≤ 999)
    (hexact : ∀ i j : ℤ, i.natAbs ≤ 2 ^ a → j.natAbs ≤ 2 ^ b → (exact i j).natAbs ≤ 2 ^ bits) :
    ∃ k, combine exact rounded m n = some k ∧ k.Bounded bits := by
  obtain ⟨x, hx⟩ := exists_toFloat hm ha
  obtain ⟨y, hy⟩ := exists_toFloat hn hb
  have hrounded : (do return Number.float (rounded (← m.toFloat?) (← n.toFloat?))) =
      some (.float (rounded x y)) := by
    rw [hx, hy]
    rfl
  cases m with
  | float u => exact ⟨_, hrounded, trivial⟩
  | int i =>
      cases n with
      | float u => exact ⟨_, hrounded, trivial⟩
      | int j => exact ⟨_, rfl, hexact i j hm hn⟩

theorem exists_add (hm : m.Bounded bits) (hn : n.Bounded bits) (hbits : bits ≤ 999) :
    ∃ k, m.add? n = some k ∧ k.Bounded (bits + 1) := by
  apply exists_combine _ hm hn hbits hbits
  intro i j hi hj
  rw [Nat.pow_succ]
  omega

theorem exists_mul (hm : m.Bounded a) (hn : n.Bounded b) (ha : a ≤ 999) (hb : b ≤ 999) :
    ∃ k, m.mul? n = some k ∧ k.Bounded (a + b) := by
  apply exists_combine _ hm hn ha hb
  intro i j hi hj
  rw [Int.natAbs_mul, Nat.pow_add]
  exact Nat.mul_le_mul hi hj

end Number

namespace Value

inductive Bounded (bits : ℕ) : Value → Prop
  | number {n : Number} : n.Bounded bits → Bounded bits (.number n)

variable {u v w : Value} {a b bits : ℕ}

theorem Bounded.mono (h : v.Bounded a) (hab : a ≤ b) : v.Bounded b := by
  cases h with
  | number hn => exact .number (hn.mono hab)

theorem add_bounded (hu : u.Bounded bits) (hv : v.Bounded bits) (hbits : bits ≤ 999) :
    SucceedsWith (Value.Bounded (bits + 1)) (u.add v) := by
  cases hu with
  | number hm =>
      cases hv with
      | number hn =>
          obtain ⟨k, hk, hbounded⟩ := Number.exists_add hm hn hbits
          refine ⟨.number k, ?_, .number hbounded⟩
          change ofNumber? _ = _
          rw [hk]
          rfl

theorem mul_bounded (hu : u.Bounded a) (hv : v.Bounded b) (ha : a ≤ 999) (hb : b ≤ 999) :
    SucceedsWith (Value.Bounded (a + b)) (u.mul v) := by
  cases hu with
  | number hm =>
      cases hv with
      | number hn =>
          obtain ⟨k, hk, hbounded⟩ := Number.exists_mul hm hn ha hb
          refine ⟨.number k, ?_, .number hbounded⟩
          change ofNumber? _ = _
          rw [hk]
          rfl

end Value

end VectorPath
