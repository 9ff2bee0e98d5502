import VectorPath.Drawing.Curve
import VectorPath.Proofs.Number.Nearest

/-!
# Exact halves

An integer of fewer than 53 bits times a power of two is a binary64 number, so rounding leaves it
alone. Half the sum of two such integers is therefore what it ought to be.
-/

namespace VectorPath

namespace Binary64

variable {n N d : ℕ} {e E : ℤ}

/-- A mantissa of fewer than 53 bits is shifted until it is full. -/
theorem exists_canonical (hn : n ≠ 0) (hlt : n < 2 ^ 53) (hlow : -1000 ≤ e) (hhigh : e ≤ 900) :
    ∃ m f, Canonical m f ∧ m ≠ 0 ∧ (m : ℚ) * 2 ^ f = n * 2 ^ e := by
  have hlog : n.log2 < 53 := (Nat.log2_lt hn).mpr hlt
  obtain ⟨k, hk⟩ : ∃ k, n.log2 + k = 52 := ⟨52 - n.log2, by omega⟩
  refine ⟨n * 2 ^ k, e - k, ⟨?_, by omega, by omega, .inl ?_⟩, by positivity, ?_⟩
  · calc n * 2 ^ k < 2 ^ (n.log2 + 1) * 2 ^ k := by gcongr; exact Nat.lt_log2_self
      _ = 2 ^ 53 := by rw [← pow_add]; congr 1; omega
  · calc 2 ^ 52 = 2 ^ n.log2 * 2 ^ k := by rw [← pow_add, hk]
      _ ≤ n * 2 ^ k := by gcongr; exact Nat.log2_self_le hn
  · rw [zpow_sub₀ (by norm_num), zpow_natCast]
    push_cast
    field_simp

theorem ofRatio_exact (hd : 0 < d) (hlt : n < 2 ^ 53) (hlow : -1000 ≤ e) (hhigh : e ≤ 900)
    (hv : (N : ℚ) / d = n * 2 ^ e) (s : Bool) :
    ∃ m f h, ofRatio s N d = .finite s m f h ∧ (m : ℚ) * 2 ^ f = n * 2 ^ e := by
  by_cases hn : n = 0
  · subst hn
    have hN : N = 0 := by
      rw [Nat.cast_zero, zero_mul, div_eq_zero_iff] at hv
      exact_mod_cast hv.resolve_right (by exact_mod_cast hd.ne')
    refine ⟨0, -1074, canonical_zero, ?_, by simp⟩
    rw [hN]
    rfl
  · obtain ⟨m, f, h, hm, hvalue⟩ := exists_canonical hn hlt hlow hhigh
    refine ⟨m, f, h, ofRatio_eq h hm hd ?_ s, hvalue⟩
    rw [hv, ← hvalue]
    exact RoundsTo.self hm f

theorem ofDyadic_exact (hlt : n < 2 ^ 53) (hlow : -1000 ≤ e) (hhigh : e ≤ 900)
    (hv : (N : ℚ) * 2 ^ E = n * 2 ^ e) (s : Bool) :
    ∃ m f h, ofDyadic s N E = .finite s m f h ∧ (m : ℚ) * 2 ^ f = n * 2 ^ e := by
  rcases E with k | k
  · apply ofRatio_exact Nat.one_pos hlt hlow hhigh
    rw [← hv]
    push_cast
    simp
  · apply ofRatio_exact (by positivity) hlt hlow hhigh
    rw [← hv, zpow_negSucc]
    push_cast
    rfl

end Binary64

namespace Curve

theorem half_eq : Binary64.ofRatio false 1 2 = .finite false (2 ^ 52) (-53) (by decide) := by
  decide

theorem half_mul {k : ℤ} (h : k.natAbs < 2 ^ 53) :
    ∃ x, half.mul (.int k) = .ok (.float x) ∧ x.exact = .rational (k / 2) := by
  have hk : (k.natAbs : ℚ) / (1 : ℕ) = k.natAbs * 2 ^ (0 : ℤ) := by simp
  obtain ⟨m, e, hm, hint, hvalue⟩ :=
    Binary64.ofRatio_exact Nat.one_pos h (by norm_num) (by norm_num) hk (k < 0)
  have hproduct : ((2 ^ 52 * m : ℕ) : ℚ) * 2 ^ (-53 + e) = k.natAbs * 2 ^ (-1 : ℤ) := by
    rw [zpow_zero, mul_one] at hvalue
    rw [← hvalue, zpow_add₀ (by norm_num)]
    push_cast
    norm_num
    ring
  obtain ⟨n, f, hn, hmul, hhalf⟩ :=
    Binary64.ofDyadic_exact h (by norm_num) (by norm_num) hproduct (k < 0)
  refine ⟨.finite (k < 0) n f hn, ?_, ?_⟩
  · have hfloat : Binary64.ofInt? k = some (.finite (k < 0) m e hm) := by
      unfold Binary64.ofInt?
      rw [hint]
    change Value.ofNumber? ((Binary64.ofInt? k).bind fun x =>
      some (Number.float ((Binary64.ofRatio false 1 2).mul x))) = _
    rw [hfloat, half_eq, ← hmul]
    simp [Binary64.mul, Value.ofNumber?, Value.float]
  · change Extended.rational _ = _
    rw [Binary64.signed_cast_mul, hhalf, ← Binary64.signed_cast_mul, Binary64.signed_natAbs]
    norm_num
    ring

/-- Half the sum of two integers is exact. -/
theorem middle_int {i j : ℤ} (h : (i + j).natAbs < 2 ^ 53) :
    ∃ x, middle (.int i) (.int j) = .ok (.float x) ∧ x.exact = .rational ((i + j) / 2) := by
  obtain ⟨x, hx, hexact⟩ := half_mul h
  exact ⟨x, hx, by exact_mod_cast hexact⟩

end Curve

end VectorPath
