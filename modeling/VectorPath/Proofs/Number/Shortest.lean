import VectorPath.Proofs.Number.Rounding

/-!
# The shortest decimal rounds back

The grid search finds a decimal in the interval of the number within seventeen digits, because the
grid of seventeen digits is finer than the interval is wide. The decimal found therefore rounds to
the number. Its last digit is not zero, and a decimal without places below `10 ^ 16` is the number
exactly.
-/

namespace VectorPath.Decimal

def toRat (x : Decimal) : ℚ := x.digits * 10 ^ x.exponent

section Trimming

theorem trimZeros_toRat (fuel : ℕ) (x : Decimal) : (trimZeros fuel x).toRat = x.toRat := by
  induction fuel generalizing x with
  | zero => rfl
  | succ fuel ih =>
      unfold trimZeros
      split_ifs with h
      · rw [ih]
        have hx : x.digits = 10 * (x.digits / 10) := by omega
        unfold toRat
        rw [zpow_add_one₀ (by norm_num)]
        have hq : (x.digits : ℚ) = 10 * (x.digits / 10 : ℕ) := by exact_mod_cast hx
        rw [hq]
        ring
      · rfl

/-- Enough fuel removes every zero from the end. -/
theorem trimZeros_last (fuel : ℕ) (x : Decimal) (hx : x.digits ≠ 0) (hlt : x.digits < 10 ^ fuel) :
    (trimZeros fuel x).digits % 10 ≠ 0 := by
  induction fuel generalizing x with
  | zero => omega
  | succ fuel ih =>
      unfold trimZeros
      split_ifs with h
      · apply ih
        · dsimp only
          omega
        · dsimp only
          omega
      · omega

end Trimming

namespace Interval

/-- The numerators of a scaled interval are multiples of one positive scale. -/
theorem scaled_scale (m : ℕ) (e u : ℤ) :
    ∃ k : ℚ, 0 < k ∧ (((Interval.of m e).scaled u).low : ℚ) = lowerQuarters m e * k ∧
      (((Interval.of m e).scaled u).high : ℚ) = (4 * m + 2) * k ∧
      (((Interval.of m e).scaled u).unit : ℚ) = 4 * (10 ^ u / 2 ^ e) * k := by
  refine ⟨2 ^ e.toNat * 10 ^ (-u).toNat, by positivity, ?_, ?_, ?_⟩
  · simp only [Interval.of, scaled, mul_assoc]
    push_cast
    rfl
  · simp only [Interval.of, scaled, mul_assoc]
    push_cast
    rfl
  · rw [zpow_eq_div_toNat 10 u, zpow_eq_div_toNat 2 e]
    simp only [Interval.of, scaled]
    push_cast
    field_simp

/-- A grid point lies in the scaled interval when its value rounds to the number. -/
theorem scaled_contains_iff (m : ℕ) (e u : ℤ) (q : ℕ) :
    ((Interval.of m e).scaled u).contains q = true ↔ RoundsTo m e (q * 10 ^ u) := by
  obtain ⟨k, hpos, hlow, hhigh, hunit⟩ := scaled_scale m e u
  have hpoint : ((q * ((Interval.of m e).scaled u).unit : ℕ) : ℚ) =
      4 * (q * 10 ^ u / 2 ^ e) * k := by
    rw [Nat.cast_mul, hunit]
    ring
  have hclosed : ((Interval.of m e).scaled u).closed = (m % 2 == 0) := rfl
  unfold contains
  rw [hclosed]
  by_cases heven : m % 2 = 0
  · simp only [heven, beq_self_eq_true, if_true, Bool.and_eq_true, decide_eq_true_eq]
    rw [← @Nat.cast_le ℚ, ← @Nat.cast_le ℚ, hpoint, hlow, hhigh, mul_le_mul_iff_left₀ hpos,
      mul_le_mul_iff_left₀ hpos]
    exact ⟨fun h => ⟨h.1, h.2, fun hodd => by omega⟩, fun h => ⟨h.low, h.high⟩⟩
  · have hne : (m % 2 == 0) = false := by simpa using heven
    simp only [hne, Bool.false_eq_true, if_false, Bool.and_eq_true, decide_eq_true_eq]
    rw [← @Nat.cast_lt ℚ, ← @Nat.cast_lt ℚ, hpoint, hlow, hhigh, mul_lt_mul_iff_left₀ hpos,
      mul_lt_mul_iff_left₀ hpos]
    exact ⟨fun h => ⟨h.1.le, h.2.le, fun _ => h⟩, fun h => h.strict (by omega)⟩

theorem of_value (m : ℕ) (e : ℤ) :
    ((Interval.of m e).value : ℚ) / (Interval.of m e).unit = m * 2 ^ e := by
  simp only [Interval.of]
  rw [zpow_eq_div_toNat 2 e]
  push_cast
  field_simp

theorem unit_pos (m : ℕ) (e u : ℤ) : 0 < ((Interval.of m e).scaled u).unit := by
  simp only [Interval.of, scaled]
  positivity

theorem value_inside {m : ℕ} (hm : m ≠ 0) (e u : ℤ) :
    ((Interval.of m e).scaled u).low < ((Interval.of m e).scaled u).value ∧
      ((Interval.of m e).scaled u).value < ((Interval.of m e).scaled u).high := by
  have hl : lowerQuarters m e < 4 * m := by
    unfold lowerQuarters
    split_ifs <;> omega
  simp only [Interval.of, scaled]
  constructor <;> gcongr
  omega

variable {i : Interval} {q g : ℕ}

theorem nearer_cases (i : Interval) (q : ℕ) : i.nearer q = q ∨ i.nearer q = q + 1 := by
  unfold nearer
  split_ifs
  · exact Or.inl rfl
  · exact Or.inr rfl
  · omega

theorem contains_of_hit? (h : i.hit? = some q) : i.contains q = true := by
  unfold hit? at h
  dsimp only at h
  split at h <;> simp only [Option.some.injEq, reduceCtorEq] at h <;> subst h
  · rename_i h₁ h₂
    rcases nearer_cases i (i.value / i.unit) with hn | hn <;> rwa [hn]
  · assumption
  · assumption

/-- One of the two neighbours of the value is hit when any grid point is. -/
theorem exists_hit (hunit : 0 < i.unit) (hlow : i.low < i.value) (hhigh : i.value < i.high)
    (h : i.contains g = true) : ∃ q, i.hit? = some q := by
  have hdiv : i.unit * (i.value / i.unit) + i.value % i.unit = i.value :=
    Nat.div_add_mod i.value i.unit
  have hmod : i.value % i.unit < i.unit := Nat.mod_lt _ hunit
  have hnear : i.contains (i.value / i.unit) = true ∨ i.contains (i.value / i.unit + 1) = true := by
    rcases Nat.lt_or_ge (i.value / i.unit) g with hg | hg
    · have hstep : (i.value / i.unit + 1) * i.unit ≤ g * i.unit := Nat.mul_le_mul_right _ hg
      have hnext : i.value < (i.value / i.unit + 1) * i.unit := by nlinarith
      refine Or.inr ?_
      unfold contains at h ⊢
      split_ifs at h ⊢ with hc <;> simp only [Bool.and_eq_true, decide_eq_true_eq] at h ⊢ <;> omega
    · have hstep : g * i.unit ≤ i.value / i.unit * i.unit := Nat.mul_le_mul_right _ hg
      have hprev : i.value / i.unit * i.unit ≤ i.value := Nat.div_mul_le_self _ _
      refine Or.inl ?_
      unfold contains at h ⊢
      split_ifs at h ⊢ with hc <;> simp only [Bool.and_eq_true, decide_eq_true_eq] at h ⊢ <;> omega
  unfold hit?
  dsimp only
  rcases hnear with h₁ | h₁
  · rw [h₁]
    split <;> simp_all
  · rw [h₁]
    split <;> simp_all

/-- An interval wider than the grid holds a grid point. -/
theorem exists_contains (hunit : 0 < i.unit) (hwide : i.low + i.unit < i.high) :
    ∃ g, i.contains g = true := by
  have hdiv : i.unit * (i.low / i.unit) + i.low % i.unit = i.low := Nat.div_add_mod i.low i.unit
  have hmod : i.low % i.unit < i.unit := Nat.mod_lt _ hunit
  have hg : (i.low / i.unit + 1) * i.unit = i.unit * (i.low / i.unit) + i.unit := by ring
  refine ⟨i.low / i.unit + 1, ?_⟩
  unfold contains
  split_ifs <;> simp only [Bool.and_eq_true, decide_eq_true_eq, hg] <;> omega

theorem hit?_of_dvd (hunit : 0 < i.unit) (hdvd : i.value % i.unit = 0)
    (hself : i.contains (i.value / i.unit) = true) : i.hit? = some (i.value / i.unit) := by
  have hdiv : i.value / i.unit * i.unit = i.value := by
    have := Nat.div_add_mod i.value i.unit
    rw [mul_comm]
    omega
  have hnear : i.nearer (i.value / i.unit) = i.value / i.unit := by
    unfold nearer
    rw [if_pos (by rw [hdiv]; omega)]
  unfold hit?
  dsimp only
  rw [hself, hnear]
  split <;> simp_all

end Interval

section Order

theorem placesToOne_spec (n d : ℕ) (fuel j : ℕ) (h : ∃ l ≤ fuel, d ≤ n * 10 ^ (j + l)) :
    j ≤ placesToOne n d fuel j ∧ d ≤ n * 10 ^ placesToOne n d fuel j ∧
      ∀ l, j ≤ l → l < placesToOne n d fuel j → n * 10 ^ l < d := by
  induction fuel generalizing j with
  | zero =>
      obtain ⟨l, hl, hd⟩ := h
      obtain rfl : l = 0 := by omega
      exact ⟨le_rfl, hd, fun l h₁ h₂ => absurd h₂ (not_lt.mpr h₁)⟩
  | succ fuel ih =>
      unfold placesToOne
      split_ifs with hj
      · exact ⟨le_rfl, hj, fun l h₁ h₂ => absurd h₂ (not_lt.mpr h₁)⟩
      · obtain ⟨l, hl, hd⟩ := h
        have hl₀ : l ≠ 0 := by
          rintro rfl
          exact hj hd
        have hshift : j + 1 + (l - 1) = j + l := by omega
        obtain ⟨h₁, h₂, h₃⟩ := ih (j + 1) ⟨l - 1, by omega, by rwa [hshift]⟩
        refine ⟨by omega, h₂, fun k hk hlt => ?_⟩
        rcases Nat.eq_or_lt_of_le hk with rfl | hk
        · exact not_le.mp hj
        · exact h₃ k hk hlt

/-- The decimal order is the number of digits before the point, or minus the zeros behind it. -/
theorem decimalOrder_spec {n d k : ℕ} (hd : 0 < d) (hk : k ≤ 400) (hsmall : d ≤ n * 10 ^ k) :
    (10 : ℚ) ^ (decimalOrder n d - 1) ≤ n / d ∧ (n : ℚ) / d < 10 ^ decimalOrder n d := by
  have hdq : (0 : ℚ) < d := by exact_mod_cast hd
  unfold decimalOrder
  split_ifs with h
  · have hpos := Nat.length_toDigits_pos (b := 10) (n := n / d)
    have hlt := (Nat.length_toDigits_le_iff (b := 10) (by norm_num) hpos).mp le_rfl
    generalize hL : (Nat.toDigits 10 (n / d)).length = L at *
    have hge : 10 ^ (L - 1) ≤ n / d := by
      rcases Nat.eq_zero_or_pos (L - 1) with h₀ | h₀
      · rw [h₀, pow_zero]
        exact Nat.div_pos h hd
      · by_contra hlt'
        have := (Nat.length_toDigits_le_iff (b := 10) (by norm_num) h₀).mpr (not_le.mp hlt')
        omega
    have hexp : ((L : ℤ) - 1) = ((L - 1 : ℕ) : ℤ) := by omega
    rw [hexp, zpow_natCast, zpow_natCast, le_div_iff₀ hdq, div_lt_iff₀ hdq]
    exact ⟨by exact_mod_cast (Nat.le_div_iff_mul_le hd).mp hge,
      by exact_mod_cast (Nat.div_lt_iff_lt_mul hd).mp hlt⟩
  · obtain ⟨-, h₂, h₃⟩ := placesToOne_spec n d 400 0 ⟨k, hk, by simpa using hsmall⟩
    generalize placesToOne n d 400 0 = j at *
    have hj : j ≠ 0 := by
      rintro rfl
      simp at h₂
      exact h h₂
    have hprev := h₃ (j - 1) (Nat.zero_le _) (by omega)
    have hlow : (1 : ℤ) - j - 1 = -(j : ℤ) := by ring
    have hhigh : (1 : ℤ) - j = -((j - 1 : ℕ) : ℤ) := by omega
    rw [hlow, hhigh, zpow_neg, zpow_neg, zpow_natCast, zpow_natCast, le_div_iff₀ hdq,
      div_lt_iff₀ hdq, inv_mul_le_iff₀ (by positivity), lt_inv_mul_iff₀ (by positivity),
      mul_comm _ (n : ℚ), mul_comm _ (n : ℚ)]
    exact ⟨by exact_mod_cast h₂, by exact_mod_cast hprev⟩

end Order

/-- The search ends at the first grid with a hit. -/
theorem firstHit_spec (i : Interval) (fuel : ℕ) (u : ℤ)
    (h : ∃ j < fuel, ∃ q, (i.scaled (u - j)).hit? = some q) :
    ∃ j < fuel, ∃ q, (i.scaled (u - j)).hit? = some q ∧ firstHit i fuel u = ⟨q, u - j⟩ ∧
      ∀ l < j, (i.scaled (u - l)).hit? = none := by
  induction fuel generalizing u with
  | zero =>
      obtain ⟨j, hj, -⟩ := h
      omega
  | succ fuel ih =>
      unfold firstHit
      cases hu : (i.scaled u).hit? with
      | some q => exact ⟨0, by omega, q, by simpa using hu, by simp, by omega⟩
      | none =>
          obtain ⟨j, hj, q, hq⟩ := h
          have hj₀ : j ≠ 0 := by
            rintro rfl
            simp [hu] at hq
          have hshift (l : ℕ) : u - 1 - l = u - (l + 1 : ℕ) := by
            push_cast
            ring
          obtain ⟨k, hk, p, hp, hfirst, hnone⟩ := ih (u - 1)
            ⟨j - 1, by omega, q, by rw [hshift, Nat.sub_add_cancel (by omega)]; exact hq⟩
          rw [hshift] at hp hfirst
          refine ⟨k + 1, by omega, p, hp, hfirst, fun l hl => ?_⟩
          rcases l with _ | l
          · simpa using hu
          · rw [← hshift]
            exact hnone l (by omega)

section Canonical

variable {m : ℕ} {e : ℤ}

/-- The number of digits before the point of `m * 2 ^ e`. -/
def orderOf (m : ℕ) (e : ℤ) : ℤ := decimalOrder (Interval.of m e).value (Interval.of m e).unit

theorem orderOf_spec (h : Canonical m e) (hm : m ≠ 0) :
    (10 : ℚ) ^ (orderOf m e - 1) ≤ m * 2 ^ e ∧ (m : ℚ) * 2 ^ e < 10 ^ orderOf m e := by
  have hunit : 0 < (Interval.of m e).unit := by
    simp only [Interval.of]
    positivity
  obtain ⟨k, hk, hk'⟩ : ∃ k : ℕ, 1074 ≤ 3 * k ∧ k ≤ 400 := ⟨358, by norm_num, by norm_num⟩
  have hsmall : (Interval.of m e).unit ≤ (Interval.of m e).value * 10 ^ k := by
    have hleast := h.2.1
    have hdown : 2 ^ (-e).toNat ≤ 10 ^ k :=
      calc 2 ^ (-e).toNat ≤ 2 ^ (3 * k) := Nat.pow_le_pow_right (by norm_num) (by omega)
        _ = (2 ^ 3) ^ k := pow_mul 2 3 k
        _ ≤ 10 ^ k := Nat.pow_le_pow_left (by norm_num) k
    have hone : 1 ≤ m * 2 ^ e.toNat :=
      Nat.mul_pos (Nat.pos_of_ne_zero hm) (Nat.two_pow_pos _)
    simp only [Interval.of]
    calc 4 * 2 ^ (-e).toNat ≤ 4 * 10 ^ k := by gcongr
      _ ≤ 4 * (m * 2 ^ e.toNat) * 10 ^ k := by gcongr; omega
      _ = 4 * m * 2 ^ e.toNat * 10 ^ k := by ring
  rw [← Interval.of_value]
  exact decimalOrder_spec hunit hk' hsmall

/-- The grid of seventeen digits is finer than the interval is wide. -/
theorem grid_fine (h : Canonical m e) (hm : m ≠ 0) :
    (lowerQuarters m e : ℚ) + 4 * (10 ^ (orderOf m e - 17) / 2 ^ e) < 4 * m + 2 := by
  have he := two_zpow_pos e
  have hstep : (10 : ℚ) ^ (orderOf m e - 17) * 10 ^ 16 ≤ m * 2 ^ e := by
    have hsplit : (10 : ℚ) ^ (orderOf m e - 17) * 10 ^ 16 = 10 ^ (orderOf m e - 1) := by
      rw [← zpow_natCast, ← zpow_add₀ (by norm_num)]
      congr 1
      push_cast
      ring
    rw [hsplit]
    exact (orderOf_spec h hm).1
  have hgrid : (10 : ℚ) ^ (orderOf m e - 17) / 2 ^ e * 10 ^ 16 ≤ m := by
    rw [div_mul_eq_mul_div, div_le_iff₀ he]
    exact hstep
  have hmax : (m : ℚ) + 1 ≤ 2 ^ 53 := by exact_mod_cast h.1
  by_cases hpow : m = 2 ^ 52 ∧ e ≠ -1074
  · have hl : (lowerQuarters m e : ℚ) = 4 * 2 ^ 52 - 1 := by
      unfold lowerQuarters
      rw [if_pos hpow, hpow.1]
      norm_num
    have hmv : (m : ℚ) = 2 ^ 52 := by exact_mod_cast hpow.1
    rw [hmv] at hgrid
    rw [hl, hmv]
    norm_num at hgrid ⊢
    linarith
  · have hl : (lowerQuarters m e : ℚ) = 4 * m - 2 := by
      have : lowerQuarters m e + 2 = 4 * m := by
        unfold lowerQuarters
        rw [if_neg hpow]
        omega
      have : (lowerQuarters m e : ℚ) + 2 = 4 * m := by exact_mod_cast this
      linarith
    rw [hl]
    norm_num at hgrid hmax ⊢
    linarith

theorem search_hits (h : Canonical m e) (hm : m ≠ 0) :
    ∃ j < 17, ∃ q, ((Interval.of m e).scaled (orderOf m e - 1 - (j : ℕ))).hit? = some q := by
  refine ⟨16, by norm_num, ?_⟩
  have hu : orderOf m e - 1 - (16 : ℕ) = orderOf m e - 17 := by
    push_cast
    ring
  rw [hu]
  have hwide : ((Interval.of m e).scaled (orderOf m e - 17)).low +
      ((Interval.of m e).scaled (orderOf m e - 17)).unit <
        ((Interval.of m e).scaled (orderOf m e - 17)).high := by
    obtain ⟨k, hk, hlow, hhigh, hunit⟩ := Interval.scaled_scale m e (orderOf m e - 17)
    have hfine := mul_lt_mul_of_pos_right (grid_fine h hm) hk
    rw [add_mul, ← hlow, ← hhigh, ← hunit] at hfine
    exact_mod_cast hfine
  obtain ⟨g, hg⟩ := Interval.exists_contains (Interval.unit_pos m e _) hwide
  obtain ⟨hlow, hhigh⟩ := Interval.value_inside hm e (orderOf m e - 17)
  exact Interval.exists_hit (Interval.unit_pos m e _) hlow hhigh hg

theorem shortest_search (h : Canonical m e) (hm : m ≠ 0) :
    ∃ j < 17, ∃ q : ℕ, RoundsTo m e (q * 10 ^ (orderOf m e - 1 - (j : ℕ))) ∧
      ((Interval.of m e).scaled (orderOf m e - 1 - (j : ℕ))).hit? = some q ∧
      shortest m e = trimZeros 20 ⟨q, orderOf m e - 1 - (j : ℕ)⟩ ∧
      ∀ l < j, ((Interval.of m e).scaled (orderOf m e - 1 - (l : ℕ))).hit? = none := by
  obtain ⟨j, hj, q, hq, hfirst, hnone⟩ := firstHit_spec _ 17 _ (search_hits h hm)
  refine ⟨j, hj, q, ?_, hq, ?_, hnone⟩
  · exact (Interval.scaled_contains_iff m e _ q).mp (Interval.contains_of_hit? hq)
  · rw [← hfirst]
    rfl

/-- The shortest decimal rounds to the number it was made from. -/
theorem shortest_rounds (h : Canonical m e) (hm : m ≠ 0) :
    RoundsTo m e (shortest m e).toRat := by
  obtain ⟨j, -, q, hq, -, hshort, -⟩ := shortest_search h hm
  rw [hshort, trimZeros_toRat]
  exact hq

theorem shortest_last (h : Canonical m e) (hm : m ≠ 0) : (shortest m e).digits % 10 ≠ 0 := by
  obtain ⟨j, hj, q, hq, -, hshort, -⟩ := shortest_search h hm
  rw [hshort]
  have hgrid := ten_zpow_pos (orderOf m e - 1 - (j : ℕ))
  apply trimZeros_last
  · rintro rfl
    have := hq.pos hm
    simp at this
  · have he := two_zpow_pos e
    have hhigh := hq.high
    have hone : (1 : ℚ) ≤ m := by exact_mod_cast Nat.pos_of_ne_zero hm
    rw [mul_div_assoc', div_le_iff₀ he] at hhigh
    have hlt : (q : ℚ) * 10 ^ (orderOf m e - 1 - (j : ℕ)) < 2 * 10 ^ orderOf m e := by
      have := (orderOf_spec h hm).2
      nlinarith
    have hsplit : (10 : ℚ) ^ orderOf m e = 10 ^ (j + 1) * 10 ^ (orderOf m e - 1 - (j : ℕ)) := by
      rw [← zpow_natCast, ← zpow_add₀ (by norm_num)]
      congr 1
      push_cast
      ring
    rw [hsplit, ← mul_assoc, mul_lt_mul_iff_left₀ hgrid] at hlt
    have hlt' : q < 2 * 10 ^ (j + 1) := by exact_mod_cast hlt
    have hj' : 10 ^ (j + 1) ≤ 10 ^ 17 := Nat.pow_le_pow_right (by norm_num) (by omega)
    dsimp only
    omega

/-- A number that is whole and has an exponent is hit exactly by the grid of ones. -/
theorem hit?_ones (hm : m ≠ 0) (he : 0 ≤ e) :
    ((Interval.of m e).scaled 0).hit? = some (m * 2 ^ e.toNat) := by
  have hunit : ((Interval.of m e).scaled 0).unit = 4 := by
    simp [Interval.of, Interval.scaled, he]
  have hvalue : ((Interval.of m e).scaled 0).value = m * 2 ^ e.toNat * 4 := by
    simp only [Interval.of, Interval.scaled, Int.neg_zero, Int.toNat_zero, pow_zero, mul_one]
    ring
  have hquot : ((Interval.of m e).scaled 0).value / ((Interval.of m e).scaled 0).unit =
      m * 2 ^ e.toNat := by
    rw [hvalue, hunit, Nat.mul_div_cancel _ (by norm_num)]
  have hexact : ((m * 2 ^ e.toNat : ℕ) : ℚ) * 10 ^ (0 : ℤ) = m * 2 ^ e := by
    rw [zpow_zero, mul_one, Nat.cast_mul, Nat.cast_pow, ← zpow_natCast, Int.toNat_of_nonneg he]
    rfl
  have hself : ((Interval.of m e).scaled 0).contains (m * 2 ^ e.toNat) = true := by
    rw [Interval.scaled_contains_iff, hexact]
    exact RoundsTo.self hm e
  have h := Interval.hit?_of_dvd (Interval.unit_pos m e 0)
    (by rw [hvalue, hunit, Nat.mul_mod_left]) (by rwa [hquot])
  rwa [hquot] at h

/-- Among numbers without places the one that rounds to a number with places is that number. -/
theorem eq_of_rounds_of_nonpos {N : ℕ} (he : e ≤ 0) (hN : RoundsTo m e N) :
    (N : ℚ) = m * 2 ^ e := by
  obtain ⟨k, rfl⟩ : ∃ k : ℕ, e = -(k : ℤ) := ⟨(-e).toNat, by omega⟩
  have hscale : (N : ℚ) / 2 ^ (-(k : ℤ)) = (N * 2 ^ k : ℕ) := by
    rw [zpow_neg, zpow_natCast, div_inv_eq_mul]
    push_cast
    rfl
  have hl := RoundsTo.lowerQuarters_ge m (-(k : ℤ))
  have hlow := hl.trans hN.low
  have hhigh := hN.high
  rw [hscale] at hlow hhigh
  have hlow' : 4 * m ≤ 4 * (N * 2 ^ k) + 2 := by
    have : (4 : ℚ) * m ≤ 4 * (N * 2 ^ k : ℕ) + 2 := by linarith
    exact_mod_cast this
  have hhigh' : 4 * (N * 2 ^ k) ≤ 4 * m + 2 := by exact_mod_cast hhigh
  have hm : N * 2 ^ k = m := by omega
  rw [zpow_neg, zpow_natCast, ← hm]
  push_cast
  field_simp

/-- Above `2 ^ 53` the numbers are even, and the next exponent is out of reach of sixteen digits. -/
theorem exponent_eq_one {N : ℕ} (h : Canonical m e) (he : 0 < e) (hN : RoundsTo m e N)
    (hlt : (N : ℚ) < 10 ^ 16) : e = 1 := by
  have hfull : (2 : ℚ) ^ 52 ≤ m := by exact_mod_cast h.2.2.2.resolve_right (by omega)
  have hlow := (RoundsTo.lowerQuarters_ge m e).trans hN.low
  by_contra hne
  have hfour : (4 : ℚ) ≤ 2 ^ e :=
    calc (4 : ℚ) = 2 ^ (2 : ℤ) := by norm_num
      _ ≤ 2 ^ e := zpow_le_zpow_right₀ (by norm_num) (by omega)
  rw [mul_div_assoc', le_div_iff₀ (two_zpow_pos e)] at hlow
  nlinarith

theorem close_of_rounds_one {N : ℕ} (hN : RoundsTo m 1 N) : 2 * m ≤ N + 1 ∧ N ≤ 2 * m + 1 := by
  have hlow := (RoundsTo.lowerQuarters_ge m 1).trans hN.low
  have hhigh := hN.high
  rw [zpow_one] at hlow hhigh
  have hlow' : (2 : ℚ) * m ≤ N + 1 := by linarith
  have hhigh' : (N : ℚ) ≤ 2 * m + 1 := by linarith
  exact ⟨by exact_mod_cast hlow', by exact_mod_cast hhigh'⟩

/-- The grid of ones hits an even number exactly, and the coarser grids have only even points. -/
theorem shortest_even {N : ℕ} (h : Canonical m 1) (hm : m ≠ 0)
    (hN : (shortest m 1).toRat = N) : N = 2 * m ∨ N % 2 = 0 := by
  obtain ⟨j, -, q, -, hq, hshort, hnone⟩ := shortest_search h hm
  rw [hshort, trimZeros_toRat] at hN
  have hones := hit?_ones hm (by norm_num : (0 : ℤ) ≤ 1)
  rcases lt_trichotomy (orderOf m 1 - 1 - (j : ℤ)) 0 with hu | hu | hu
  · -- The grid of ones comes first and is hit.
    have horder : 1 ≤ orderOf m 1 := by
      have hlarge : (10 : ℚ) ^ (0 : ℤ) < 10 ^ orderOf m 1 := by
        have hfull : (2 : ℚ) ^ 52 ≤ m := by exact_mod_cast h.2.2.2.resolve_right (by norm_num)
        have hv := (orderOf_spec h hm).2
        rw [zpow_one] at hv
        rw [zpow_zero]
        linarith
      have := (zpow_lt_zpow_iff_right₀ (by norm_num : (1 : ℚ) < 10)).mp hlarge
      omega
    have hbefore := hnone (orderOf m 1 - 1).toNat (by omega)
    rw [Int.toNat_of_nonneg (by omega), sub_self, hones] at hbefore
    simp at hbefore
  · rw [hu, hones] at hq
    rw [hu] at hN
    simp only [Option.some.injEq] at hq
    refine Or.inl ?_
    have hNq : N = q := by
      unfold toRat at hN
      simp only [zpow_zero, mul_one] at hN
      exact_mod_cast hN.symm
    rw [hNq, ← hq]
    norm_num
    ring
  · refine Or.inr ?_
    obtain ⟨k, hk⟩ : ∃ k : ℕ, orderOf m 1 - 1 - (j : ℤ) = k + 1 :=
      ⟨(orderOf m 1 - 1 - (j : ℤ) - 1).toNat, by omega⟩
    have hNq : N = q * 10 ^ k * 10 := by
      unfold toRat at hN
      rw [hk] at hN
      dsimp only at hN
      rw [zpow_add_one₀ (by norm_num), zpow_natCast, ← mul_assoc] at hN
      exact_mod_cast hN.symm
    omega

/-- The shortest decimal of a number of at most sixteen digits has no places only when it is the
number exactly. -/
theorem shortest_exact (h : Canonical m e) (hm : m ≠ 0) (hexp : 0 ≤ (shortest m e).exponent)
    (hlt : (shortest m e).toRat < 10 ^ 16) : (shortest m e).toRat = m * 2 ^ e := by
  obtain ⟨N, hN⟩ : ∃ N : ℕ, (shortest m e).toRat = N := by
    refine ⟨(shortest m e).digits * 10 ^ (shortest m e).exponent.toNat, ?_⟩
    unfold toRat
    rw [Nat.cast_mul, Nat.cast_pow, ← zpow_natCast, Int.toNat_of_nonneg hexp]
    rfl
  have hround := shortest_rounds h hm
  rw [hN] at hround hlt
  rcases Int.lt_or_le 0 e with he | he
  · obtain rfl := exponent_eq_one h he hround hlt
    obtain ⟨hlow, hhigh⟩ := close_of_rounds_one hround
    have hexact : N = 2 * m := by
      rcases shortest_even h hm hN with heven | heven <;> omega
    rw [hN, hexact, zpow_one]
    push_cast
    ring
  · rw [hN]
    exact eq_of_rounds_of_nonpos he hround

end Canonical

end VectorPath.Decimal
