import Mathlib.Algebra.Order.Field.Power
import Mathlib.Data.Rat.Floor
import Mathlib.Tactic.FieldSimp
import Mathlib.Tactic.Linarith
import Mathlib.Tactic.NormNum
import Mathlib.Tactic.Push
import Mathlib.Tactic.Ring
import VectorPath.Number.Places
import VectorPath.Number.Shortest

/-!
# Rounding a quotient to a binary64 number

The rounded quotient is described by the rationals that round to a given number: an interval
around it, closed exactly when the mantissa is even. A quotient in the interval of a canonical
pair rounds to that pair, so a canonical pair is determined by its value. A quotient below the
range of the format rounds to a finite number.
-/

namespace VectorPath

theorem zpow_eq_div_toNat (b : ℚ) (e : ℤ) :
    b ^ e = b ^ e.toNat / b ^ (-e).toNat := by
  rcases e with k | k
  · simp
  · have h₁ : (Int.negSucc k).toNat = 0 := rfl
    have h₂ : (-Int.negSucc k).toNat = k + 1 := rfl
    rw [h₁, h₂, zpow_negSucc, pow_zero, one_div]

theorem two_zpow_pos (e : ℤ) : (0 : ℚ) < 2 ^ e := zpow_pos (by norm_num) e

theorem ten_zpow_pos (e : ℤ) : (0 : ℚ) < 10 ^ e := zpow_pos (by norm_num) e

theorem two_zpow_add_one (e : ℤ) : (2 : ℚ) ^ (e + 1) = 2 * 2 ^ e := by
  rw [zpow_add_one₀ (by norm_num), mul_comm]

section HalfEven

variable {n d m : ℕ}

/-- A natural number at most half a unit away is the rounded quotient, and at exactly half a unit
it must be even. -/
theorem divHalfEven_eq (hd : 0 < d) (hlow : 2 * m * d ≤ 2 * n + d)
    (hhigh : 2 * n ≤ (2 * m + 1) * d)
    (htie : 2 * m * d = 2 * n + d ∨ 2 * n = (2 * m + 1) * d → m % 2 = 0) :
    divHalfEven n d = m := by
  have hn : n = d * (n / d) + n % d := (Nat.div_add_mod n d).symm
  have hr : n % d < d := Nat.mod_lt n hd
  unfold divHalfEven
  generalize n / d = a at *
  generalize n % d = r at *
  subst hn
  split_ifs with h₁ h₂
  · have hle : a ≤ m := by
      by_contra hlt
      nlinarith
    have hge : m < a + 1 := by
      by_contra hlt
      nlinarith
    omega
  · have hlt : a < m := by
      by_contra hge
      nlinarith
    have hle : m ≤ a + 1 := by
      by_contra hgt
      nlinarith
    omega
  · have hd' : d = 2 * r := by omega
    have hle : a ≤ m := by
      by_contra hlt
      nlinarith
    have hge : m ≤ a + 1 := by
      by_contra hgt
      nlinarith
    rcases (by omega : m = a ∨ m = a + 1) with rfl | rfl
    · have heven := htie (Or.inr (by rw [hd']; ring))
      omega
    · have heven := htie (Or.inl (by rw [hd']; ring))
      omega

/-- The rounded quotient is at most half a unit away. -/
theorem divHalfEven_close (n : ℕ) (hd : 0 < d) :
    |(n : ℚ) / d - divHalfEven n d| ≤ 1 / 2 := by
  have hn : n = d * (n / d) + n % d := (Nat.div_add_mod n d).symm
  have hr : n % d < d := Nat.mod_lt n hd
  have hq : (n : ℚ) / d = (n / d : ℕ) + (n % d : ℕ) / (d : ℚ) := by
    have hne : (d : ℚ) ≠ 0 := by positivity
    field_simp
    exact_mod_cast hn
  have hparity : n / d % 2 ≤ 1 := by omega
  unfold divHalfEven
  rw [hq, abs_le]
  have hdq : (0 : ℚ) < d := by exact_mod_cast hd
  have hfrac : (0 : ℚ) ≤ (n % d : ℕ) / (d : ℚ) := by positivity
  split_ifs with h₁ h₂
  · have hhalf : ((n % d : ℕ) : ℚ) / d ≤ 1 / 2 := by
      rw [div_le_iff₀ hdq]
      have : (2 : ℚ) * (n % d : ℕ) < d := by exact_mod_cast h₁
      linarith
    constructor <;> linarith
  · have hhalf : (1 : ℚ) / 2 ≤ (n % d : ℕ) / d := by
      rw [le_div_iff₀ hdq]
      have : (d : ℚ) < 2 * (n % d : ℕ) := by exact_mod_cast h₂
      linarith
    have hone : ((n % d : ℕ) : ℚ) / d ≤ 1 := by
      rw [div_le_one hdq]
      exact_mod_cast hr.le
    push_cast
    constructor <;> linarith
  · have hhalf : ((n % d : ℕ) : ℚ) / d = 1 / 2 := by
      rw [div_eq_iff hdq.ne']
      have : (2 : ℚ) * (n % d : ℕ) = d := by exact_mod_cast (by omega : 2 * (n % d) = d)
      linarith
    have hp : ((n / d % 2 : ℕ) : ℚ) ≤ 1 := by exact_mod_cast hparity
    have hp₀ : (0 : ℚ) ≤ (n / d % 2 : ℕ) := by positivity
    push_cast at hp hp₀ ⊢
    constructor <;> linarith

theorem divHalfEven_eq_of_close (hd : 0 < d) (hlow : (2 : ℚ) * m - 1 ≤ 2 * (n / d))
    (hhigh : (2 : ℚ) * (n / d) ≤ 2 * m + 1)
    (htie : (2 : ℚ) * m - 1 = 2 * (n / d) ∨ (2 : ℚ) * (n / d) = 2 * m + 1 → m % 2 = 0) :
    divHalfEven n d = m := by
  have hdq : (0 : ℚ) < d := by exact_mod_cast hd
  have hq : (2 : ℚ) * (n / d) * d = 2 * n := by field_simp
  apply divHalfEven_eq hd
  · have : (2 : ℚ) * m * d ≤ 2 * n + d := by nlinarith
    exact_mod_cast this
  · have : (2 : ℚ) * n ≤ (2 * m + 1) * d := by nlinarith
    exact_mod_cast this
  · rintro (h | h)
    · have h' : (2 : ℚ) * m * d = 2 * n + d := by exact_mod_cast h
      refine htie (Or.inl ?_)
      have : (2 * (m : ℚ) - 1) * d = 2 * (n / d) * d := by rw [hq]; linarith
      exact mul_right_cancel₀ hdq.ne' this
    · have h' : (2 : ℚ) * n = (2 * m + 1) * d := by exact_mod_cast h
      refine htie (Or.inr (mul_right_cancel₀ hdq.ne' ?_))
      rw [hq, h']

end HalfEven

theorem divScaled_eq (n d : ℕ) (hd : 0 < d) (e : ℤ) :
    ∃ n' d' : ℕ, 0 < d' ∧ divScaled n d e = divHalfEven n' d' ∧
      (n' : ℚ) / d' = n / d / 2 ^ e := by
  have hdq : (d : ℚ) ≠ 0 := by positivity
  rcases e with k | k
  · refine ⟨n, d * 2 ^ k, by positivity, rfl, ?_⟩
    push_cast
    simp only [Int.ofNat_eq_natCast, zpow_natCast]
    field_simp
  · refine ⟨n * 2 ^ (k + 1), d, hd, rfl, ?_⟩
    push_cast
    rw [zpow_negSucc]
    field_simp

section Order

variable {n d : ℕ}

theorem reachesPower_iff (hd : 0 < d) (e : ℤ) :
    reachesPower n d e = true ↔ (2 : ℚ) ^ e ≤ n / d := by
  have hdq : (0 : ℚ) < d := by exact_mod_cast hd
  rw [le_div_iff₀ hdq]
  rcases e with k | k
  · simp only [reachesPower, decide_eq_true_eq, Int.ofNat_eq_natCast, zpow_natCast]
    rw [mul_comm d]
    exact_mod_cast Iff.rfl
  · simp only [reachesPower, decide_eq_true_eq]
    rw [zpow_negSucc, inv_mul_le_iff₀ (by positivity), mul_comm _ (n : ℚ)]
    exact_mod_cast Iff.rfl

theorem two_pow_log2_le (hn : n ≠ 0) : (2 : ℚ) ^ (n.log2 : ℤ) ≤ n := by
  rw [zpow_natCast]
  exact_mod_cast Nat.log2_self_le hn

theorem lt_two_pow_log2 : (n : ℚ) < 2 ^ ((n.log2 : ℤ) + 1) := by
  have h := Nat.lt_log2_self (n := n)
  have hz : (2 : ℚ) ^ ((n.log2 : ℤ) + 1) = (2 ^ (n.log2 + 1) : ℕ) := by
    push_cast
    rw [← zpow_natCast]
    push_cast
    rfl
  rw [hz]
  exact_mod_cast h

/-- The binary order is the exponent of the power of two next below the quotient. -/
theorem binaryOrder_spec (hn : n ≠ 0) (hd : 0 < d) :
    (2 : ℚ) ^ binaryOrder n d ≤ n / d ∧ (n : ℚ) / d < 2 ^ (binaryOrder n d + 1) := by
  have hdq : (0 : ℚ) < d := by exact_mod_cast hd
  have hn₁ := two_pow_log2_le hn
  have hn₂ := lt_two_pow_log2 (n := n)
  have hd₁ := two_pow_log2_le hd.ne'
  have hd₂ := lt_two_pow_log2 (n := d)
  have hupper : (n : ℚ) / d < 2 ^ ((n.log2 : ℤ) - d.log2 + 1) := by
    rw [div_lt_iff₀ hdq]
    calc (n : ℚ) < 2 ^ ((n.log2 : ℤ) + 1) := hn₂
      _ = 2 ^ ((n.log2 : ℤ) - d.log2 + 1) * 2 ^ (d.log2 : ℤ) := by
        rw [← zpow_add₀ (by norm_num)]
        congr 1
        ring
      _ ≤ 2 ^ ((n.log2 : ℤ) - d.log2 + 1) * d := by gcongr
  have hlower : (2 : ℚ) ^ ((n.log2 : ℤ) - d.log2 - 1) ≤ n / d := by
    rw [le_div_iff₀ hdq]
    calc (2 : ℚ) ^ ((n.log2 : ℤ) - d.log2 - 1) * d
        ≤ 2 ^ ((n.log2 : ℤ) - d.log2 - 1) * 2 ^ ((d.log2 : ℤ) + 1) := by gcongr
      _ = 2 ^ (n.log2 : ℤ) := by
        rw [← zpow_add₀ (by norm_num)]
        congr 1
        ring
      _ ≤ n := hn₁
  unfold binaryOrder
  dsimp only
  split_ifs with h
  · exact ⟨(reachesPower_iff hd _).mp h, hupper⟩
  · refine ⟨hlower, ?_⟩
    rw [sub_add_cancel]
    exact not_le.mp (fun hle => h ((reachesPower_iff hd _).mpr hle))

/-- Bounds by powers of two fix the binary order. -/
theorem binaryOrder_eq (hn : n ≠ 0) (hd : 0 < d) {b : ℤ} (hlow : (2 : ℚ) ^ b ≤ n / d)
    (hhigh : (n : ℚ) / d < 2 ^ (b + 1)) : binaryOrder n d = b := by
  obtain ⟨h₁, h₂⟩ := binaryOrder_spec hn hd
  have ha := (zpow_lt_zpow_iff_right₀ (by norm_num : (1 : ℚ) < 2)).mp (hlow.trans_lt h₂)
  have hb := (zpow_lt_zpow_iff_right₀ (by norm_num : (1 : ℚ) < 2)).mp (h₁.trans_lt hhigh)
  omega

theorem binaryOrder_lt (hn : n ≠ 0) (hd : 0 < d) {b : ℤ} (h : (n : ℚ) / d < 2 ^ b) :
    binaryOrder n d < b :=
  (zpow_lt_zpow_iff_right₀ (by norm_num : (1 : ℚ) < 2)).mp
    ((binaryOrder_spec hn hd).1.trans_lt h)

end Order

theorem divScaled_eq_of_close {n d m : ℕ} (hd : 0 < d) {e : ℤ}
    (hlow : (2 : ℚ) * m - 1 ≤ 2 * (n / d / 2 ^ e)) (hhigh : (2 : ℚ) * (n / d / 2 ^ e) ≤ 2 * m + 1)
    (htie : (2 : ℚ) * m - 1 = 2 * (n / d / 2 ^ e) ∨ (2 : ℚ) * (n / d / 2 ^ e) = 2 * m + 1 →
      m % 2 = 0) :
    divScaled n d e = m := by
  obtain ⟨n', d', hd', hdiv, hq⟩ := divScaled_eq n d hd e
  rw [← hq] at hlow hhigh htie
  rw [hdiv]
  exact divHalfEven_eq_of_close hd' hlow hhigh htie

theorem divScaled_close (n : ℕ) {d : ℕ} (hd : 0 < d) (e : ℤ) :
    |(n : ℚ) / d / 2 ^ e - divScaled n d e| ≤ 1 / 2 := by
  obtain ⟨n', d', hd', hdiv, hq⟩ := divScaled_eq n d hd e
  rw [hdiv, ← hq]
  exact divHalfEven_close n' hd'

/-- The rationals that round to `m * 2 ^ e`, in quarters of a unit of the mantissa. -/
structure RoundsTo (m : ℕ) (e : ℤ) (q : ℚ) : Prop where
  low : (Decimal.lowerQuarters m e : ℚ) ≤ 4 * (q / 2 ^ e)
  high : 4 * (q / 2 ^ e) ≤ 4 * m + 2
  strict : m % 2 = 1 →
    (Decimal.lowerQuarters m e : ℚ) < 4 * (q / 2 ^ e) ∧ 4 * (q / 2 ^ e) < 4 * m + 2

namespace RoundsTo

variable {m : ℕ} {e : ℤ} {q : ℚ}

theorem lowerQuarters_ge (m : ℕ) (e : ℤ) : (4 : ℚ) * m - 2 ≤ Decimal.lowerQuarters m e := by
  have h : 4 * m ≤ Decimal.lowerQuarters m e + 2 := by
    unfold Decimal.lowerQuarters
    split_ifs <;> omega
  have h' : (4 : ℚ) * m ≤ Decimal.lowerQuarters m e + 2 := by exact_mod_cast h
  linarith

theorem lowerQuarters_pos (hm : m ≠ 0) (e : ℤ) : 0 < Decimal.lowerQuarters m e := by
  unfold Decimal.lowerQuarters
  split_ifs <;> omega

theorem pos (hm : m ≠ 0) (h : RoundsTo m e q) : 0 < q := by
  have hl : (0 : ℚ) < Decimal.lowerQuarters m e := by exact_mod_cast lowerQuarters_pos hm e
  have ht : 0 < q / 2 ^ e := by linarith [h.low]
  exact (div_pos_iff_of_pos_right (two_zpow_pos e)).mp ht

theorem self (hm : m ≠ 0) (e : ℤ) : RoundsTo m e (m * 2 ^ e) := by
  have hv : (m : ℚ) * 2 ^ e / 2 ^ e = m := mul_div_cancel_right₀ _ (two_zpow_pos e).ne'
  have hl : Decimal.lowerQuarters m e < 4 * m := by
    unfold Decimal.lowerQuarters
    split_ifs <;> omega
  have hl' : (Decimal.lowerQuarters m e : ℚ) < 4 * m := by exact_mod_cast hl
  refine ⟨?_, ?_, fun _ => ⟨?_, ?_⟩⟩ <;> rw [hv] <;> linarith

/-- A quotient in the interval, scaled to the exponent of the pair, rounds to the mantissa. -/
theorem divScaled_eq {n d : ℕ} (hd : 0 < d) (h : RoundsTo m e (n / d)) :
    divScaled n d e = m := by
  have hl := lowerQuarters_ge m e
  refine divScaled_eq_of_close hd (by linarith [h.low]) (by linarith [h.high]) (fun htie => ?_)
  by_contra hodd
  obtain ⟨h₁, h₂⟩ := h.strict (by omega)
  rcases htie with htie | htie <;> linarith

end RoundsTo

namespace Binary64

variable {n d m : ℕ} {e : ℤ}

/-- A quotient just below a power of two is scaled by the smaller exponent, where it rounds up. -/
theorem ofRatio_boundary (h : Canonical (2 ^ 52) e) (hmin : e ≠ -1074) (hn : n ≠ 0) (hd : 0 < d)
    (hq : RoundsTo (2 ^ 52) e (n / d)) (hlt : (n : ℚ) / d < 2 ^ 52 * 2 ^ e) (s : Bool) :
    ofRatio s n d = .finite s (2 ^ 52) e h := by
  have hleast := h.2.1
  have he := two_zpow_pos e
  have hquarter : (Decimal.lowerQuarters (2 ^ 52) e : ℚ) = 4 * 2 ^ 52 - 1 := by
    unfold Decimal.lowerQuarters
    rw [if_pos ⟨rfl, hmin⟩]
    norm_num
  have hlow := hq.low
  rw [hquarter, mul_div_assoc', le_div_iff₀ he] at hlow
  have hhalf : (2 : ℚ) ^ e = 2 * 2 ^ (e - 1) := by rw [← two_zpow_add_one, sub_add_cancel]
  have he' := two_zpow_pos (e - 1)
  have hb : binaryOrder n d = e + 51 := by
    apply binaryOrder_eq hn hd
    · rw [zpow_add₀ (by norm_num)]
      norm_num at hlow ⊢
      linarith
    · rw [show e + 51 + 1 = e + 52 by ring, zpow_add₀ (by norm_num)]
      norm_num at hlt ⊢
      linarith
  have hexp : max (binaryOrder n d - 52) (-1074) = e - 1 := by omega
  have hdiv : divScaled n d (e - 1) = 2 ^ 53 := by
    apply divScaled_eq_of_close hd
    · rw [mul_div_assoc', le_div_iff₀ he']
      push_cast
      rw [hhalf] at hlow
      linarith
    · rw [mul_div_assoc', div_le_iff₀ he']
      push_cast
      rw [hhalf] at hlt
      linarith
    · intro _
      norm_num
  unfold ofRatio
  simp only [hn, if_false, hexp, hdiv, if_true, sub_add_cancel]
  exact assemble_of_canonical s _

/-- The scaled quotient below a full mantissa: either the exponent is least, or the mantissa is
the power of two that begins the range of the exponent. -/
theorem ofRatio_below (h : Canonical m e) (hn : n ≠ 0) (hd : 0 < d) (hq : RoundsTo m e (n / d))
    (hlt : (n : ℚ) / d / 2 ^ e < 2 ^ 52) (s : Bool) : ofRatio s n d = .finite s m e h := by
  have hlt' : (n : ℚ) / d < 2 ^ 52 * 2 ^ e := (div_lt_iff₀ (two_zpow_pos e)).mp hlt
  by_cases hmin : e = -1074
  · have hb : binaryOrder n d < e + 52 := by
      apply binaryOrder_lt hn hd
      rw [zpow_add₀ (by norm_num), mul_comm]
      exact hlt'
    have hexp : max (binaryOrder n d - 52) (-1074) = e := by omega
    unfold ofRatio
    simp only [hn, if_false, hexp, hq.divScaled_eq hd]
    rw [if_neg (by have := h.1; omega)]
    exact assemble_of_canonical s _
  · have hfull : 2 ^ 52 ≤ m := h.2.2.2.resolve_right hmin
    obtain rfl : m = 2 ^ 52 := by
      by_contra hne
      have hge : (2 : ℚ) ^ 52 + 1 ≤ m := by exact_mod_cast (by omega : 2 ^ 52 + 1 ≤ m)
      have hlow := (RoundsTo.lowerQuarters_ge m e).trans hq.low
      linarith
    exact ofRatio_boundary h hmin hn hd hq hlt' s

/-- A quotient that rounds to a canonical pair is rounded to it. -/
theorem ofRatio_eq (h : Canonical m e) (hm : m ≠ 0) (hd : 0 < d) (hq : RoundsTo m e (n / d))
    (s : Bool) : ofRatio s n d = .finite s m e h := by
  have hn : n ≠ 0 := by
    rintro rfl
    have := hq.pos hm
    simp at this
  by_cases hlt : (n : ℚ) / d / 2 ^ e < 2 ^ 52
  · exact ofRatio_below h hn hd hq hlt s
  · have he := two_zpow_pos e
    rw [not_lt, le_div_iff₀ he] at hlt
    have hmq : (m : ℚ) + 1 ≤ 2 ^ 53 := by exact_mod_cast h.1
    have hhigh := hq.high
    rw [mul_div_assoc', div_le_iff₀ he] at hhigh
    have hb : binaryOrder n d = e + 52 := by
      apply binaryOrder_eq hn hd
      · rw [zpow_add₀ (by norm_num), mul_comm]
        exact hlt
      · rw [add_assoc, zpow_add₀ (by norm_num)]
        norm_num at hmq ⊢
        nlinarith
    have hexp : max (binaryOrder n d - 52) (-1074) = e := by
      have := h.2.1
      omega
    unfold ofRatio
    simp only [hn, if_false, hexp, hq.divScaled_eq hd]
    rw [if_neg (by have := h.1; omega), assemble_of_canonical]

/-- Canonical pairs with one value are one pair. -/
theorem canonical_unique {m' : ℕ} {e' : ℤ} (h : Canonical m e) (h' : Canonical m' e') (hm : m ≠ 0)
    (hm' : m' ≠ 0) (hv : (m : ℚ) * 2 ^ e = m' * 2 ^ e') : m = m' ∧ e = e' := by
  obtain ⟨n, d, hd, hq⟩ : ∃ n d : ℕ, 0 < d ∧ (n : ℚ) / d = m * 2 ^ e := by
    refine ⟨m * 2 ^ e.toNat, 2 ^ (-e).toNat, by positivity, ?_⟩
    rw [zpow_eq_div_toNat]
    push_cast
    rw [mul_div_assoc]
  have h₁ := ofRatio_eq h hm hd (hq ▸ RoundsTo.self hm e) false
  have h₂ := ofRatio_eq h' hm' hd ((hq.trans hv) ▸ RoundsTo.self hm' e') false
  rw [h₁] at h₂
  simpa using h₂

/-- Quotients well below the largest number round to a finite number of their sign. -/
theorem ofRatio_finite (hd : 0 < d) (hlt : (n : ℚ) / d < 2 ^ (1000 : ℤ)) (s : Bool) :
    ∃ m e h, ofRatio s n d = .finite s m e h := by
  by_cases hn : n = 0
  · exact ⟨0, -1074, canonical_zero, by simp [ofRatio, hn, zero]⟩
  obtain ⟨hlow, hhigh⟩ := binaryOrder_spec hn hd
  have hb := binaryOrder_lt hn hd hlt
  -- The mantissa is full unless the exponent is least, and never more than `2 ^ 53`.
  unfold ofRatio
  simp only [hn, if_false]
  generalize hE : max (binaryOrder n d - 52) (-1074) = E
  have hclose := abs_le.mp (divScaled_close n hd E)
  have hE₀ := two_zpow_pos E
  have hlt' : (n : ℚ) / d / 2 ^ E < 2 ^ 53 := by
    rw [div_lt_iff₀ hE₀, mul_comm, ← zpow_natCast, ← zpow_add₀ (by norm_num)]
    exact hhigh.trans_le (zpow_le_zpow_right₀ (by norm_num) (by push_cast; omega))
  generalize divScaled n d E = M at *
  have hM : M ≤ 2 ^ 53 := by
    have : (M : ℚ) < 2 ^ 53 + 1 := by linarith [hclose.1]
    have : M < 2 ^ 53 + 1 := by exact_mod_cast this
    omega
  have hfull : 2 ^ 52 ≤ M ∨ E = -1074 := by
    by_cases hmin : E = -1074
    · exact Or.inr hmin
    have hEb : E = binaryOrder n d - 52 := by omega
    have hge : (2 : ℚ) ^ 52 ≤ n / d / 2 ^ E := by
      rw [le_div_iff₀ hE₀, ← zpow_natCast, ← zpow_add₀ (by norm_num), hEb]
      push_cast
      rw [add_sub_cancel]
      exact hlow
    have : (2 : ℚ) ^ 52 < M + 1 := by linarith [hclose.2]
    have : 2 ^ 52 < M + 1 := by exact_mod_cast this
    exact Or.inl (by omega)
  split_ifs with hmax
  · have hc : Canonical (2 ^ 52) (E + 1) := by
      refine ⟨by norm_num, ?_, ?_, Or.inl le_rfl⟩ <;> omega
    exact ⟨_, _, hc, assemble_of_canonical s hc⟩
  · have hc : Canonical M E := by
      refine ⟨by omega, ?_, ?_, hfull⟩ <;> omega
    exact ⟨_, _, hc, assemble_of_canonical s hc⟩

/-- Rounding to decimal places adds less than one, so a finite number stays finite. -/
theorem toPlaces_isFinite (places : ℕ) {x : Binary64} (hx : x.isFinite = true) :
    (x.toPlaces places).isFinite = true := by
  rcases x with _ | s | ⟨s, m, e, h⟩
  · simp [isFinite] at hx
  · simp [isFinite] at hx
  rcases e with k | k
  · rfl
  have hplaces : 0 < 10 ^ places := by positivity
  have hclose := abs_le.mp (divHalfEven_close (m * 10 ^ places) (d := 2 ^ (k + 1)) (by positivity))
  have hsmall : ((m * 10 ^ places : ℕ) : ℚ) / (2 ^ (k + 1) : ℕ) ≤ (m * 10 ^ places : ℕ) := by
    apply div_le_self (Nat.cast_nonneg _)
    exact_mod_cast Nat.one_le_two_pow
  have hunits : (unitsAt places m (k + 1) : ℚ) ≤ (m + 1 : ℕ) * (10 ^ places : ℕ) := by
    have hone : (1 : ℚ) ≤ (10 ^ places : ℕ) := by exact_mod_cast hplaces
    unfold unitsAt
    push_cast at hclose hsmall hone ⊢
    linarith [hclose.1]
  have hlt : (unitsAt places m (k + 1) : ℚ) / (10 ^ places : ℕ) < 2 ^ (1000 : ℤ) := by
    have hten : (0 : ℚ) < (10 ^ places : ℕ) := by exact_mod_cast hplaces
    calc (unitsAt places m (k + 1) : ℚ) / (10 ^ places : ℕ)
        ≤ (m + 1 : ℕ) := (div_le_iff₀ hten).mpr hunits
      _ ≤ (2 ^ 53 : ℕ) := by exact_mod_cast h.1
      _ = 2 ^ (53 : ℤ) := by norm_num
      _ < 2 ^ (1000 : ℤ) := zpow_lt_zpow_right₀ (by norm_num) (by norm_num)
  obtain ⟨m', e', h', heq⟩ := ofRatio_finite hplaces hlt s
  change (ofRatio s (unitsAt places m (k + 1)) (10 ^ places)).isFinite = true
  rw [heq]
  rfl

end Binary64

end VectorPath
