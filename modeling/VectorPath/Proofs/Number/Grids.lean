import VectorPath.Proofs.Number.Nearest
import VectorPath.Proofs.Number.Shortest

/-!
# Decimals in the interval of a number

The decimals with a given number of places form a grid. Where the interval of a number is narrower
than the grid it holds one decimal of it at most, and the shortest decimal of the number lies on
every grid that has a point in the interval. So a decimal of at most fifteen digits that rounds to a
number is its shortest decimal, and so is a whole number below `10 ^ 16`.
-/

namespace VectorPath

variable {m : ℕ} {e u : ℤ}

/-- What lies between a number and a point of its interval above it rounds to the number. -/
theorem RoundsTo.between {q r : ℚ} (hm : m ≠ 0) (hq : RoundsTo m e q) (hr : (m : ℚ) * 2 ^ e ≤ r)
    (hrq : r ≤ q) : RoundsTo m e r := by
  have he := two_zpow_pos e
  have hself := RoundsTo.self hm e
  have hlow : (m : ℚ) * 2 ^ e / 2 ^ e ≤ r / 2 ^ e := by gcongr
  have hhigh : r / 2 ^ e ≤ q / 2 ^ e := by gcongr
  refine ⟨?_, ?_, fun hodd => ⟨?_, ?_⟩⟩
  · linarith [hself.low]
  · linarith [hq.high]
  · linarith [(hself.strict hodd).1]
  · linarith [(hq.strict hodd).2]

/-- The interval of a number is no wider than a unit of its mantissa. -/
theorem RoundsTo.sub_le {q r : ℚ} (hq : RoundsTo m e q) (hr : RoundsTo m e r) :
    q - r ≤ 2 ^ e := by
  linarith [hq.close, hr.close, le_abs_self (q - m * 2 ^ e), neg_abs_le (r - m * 2 ^ e)]

/-- A grid wider than the interval has one point in it at most. -/
theorem RoundsTo.grid_unique {p q : ℕ} (hwide : (2 : ℚ) ^ e < 10 ^ u)
    (hp : RoundsTo m e (p * 10 ^ u)) (hq : RoundsTo m e (q * 10 ^ u)) : p = q := by
  have hstep := ten_zpow_pos u
  have hpq : ((p : ℚ) - q) * 10 ^ u < 1 * 10 ^ u := by linarith [hp.sub_le hq]
  have hqp : ((q : ℚ) - p) * 10 ^ u < 1 * 10 ^ u := by linarith [hq.sub_le hp]
  have h₁ : (p : ℚ) < q + 1 := by linarith [lt_of_mul_lt_mul_right hpq hstep.le]
  have h₂ : (q : ℚ) < p + 1 := by linarith [lt_of_mul_lt_mul_right hqp hstep.le]
  have h₁' : p < q + 1 := by exact_mod_cast h₁
  have h₂' : q < p + 1 := by exact_mod_cast h₂
  omega

/-- A number that is not tiny has a full mantissa. -/
theorem full_of_rounds {q : ℚ} (h : Canonical m e) (hq : RoundsTo m e q)
    (hlarge : (10 : ℚ) ^ (-15 : ℤ) ≤ q) : 2 ^ 52 ≤ m := by
  refine h.2.2.2.resolve_right fun hleast => ?_
  have hm : (m : ℚ) + 1 ≤ 2 ^ 53 := by exact_mod_cast h.1
  have hhigh := hq.below
  have hsmall : (2 : ℚ) ^ e ≤ 2 ^ (-110 : ℤ) := zpow_le_zpow_right₀ (by norm_num) (by omega)
  have hbound : (4 * (m : ℚ) + 2) * 2 ^ e ≤ 2 ^ 55 * 2 ^ (-110 : ℤ) := by
    have he := two_zpow_pos e
    gcongr
    linarith
  norm_num at hlarge hbound
  linarith

namespace Decimal

/-- A coarser grid is part of a finer one. -/
theorem grid_refine (q : ℕ) {u v : ℤ} (h : u ≤ v) :
    (q : ℚ) * 10 ^ v = (q * 10 ^ (v - u).toNat : ℕ) * 10 ^ u := by
  obtain ⟨k, rfl⟩ : ∃ k : ℕ, v = u + k := ⟨(v - u).toNat, by omega⟩
  rw [add_sub_cancel_left, Int.toNat_natCast, zpow_add₀ (by norm_num), zpow_natCast]
  push_cast
  ring

theorem ten_zpow_fifteen (v : ℤ) : (10 : ℚ) ^ v = 10 ^ 15 * 10 ^ (v - 15) := by
  rw [← zpow_natCast, ← zpow_add₀ (by norm_num)]
  congr 1
  push_cast
  ring

/-- A full mantissa has more than fifteen digits. -/
theorem grid_wide (h : Canonical m e) (hfull : 2 ^ 52 ≤ m) :
    (2 : ℚ) ^ e < 10 ^ (orderOf m e - 15) := by
  have hm : (2 : ℚ) ^ 52 ≤ m := by exact_mod_cast hfull
  have horder := (orderOf_spec h (by omega)).2
  rw [ten_zpow_fifteen] at horder
  have he := two_zpow_pos e
  have hten := ten_zpow_pos (orderOf m e - 15)
  nlinarith

theorem hit_of_rounds (hm : m ≠ 0) {g : ℕ} (hg : RoundsTo m e (g * 10 ^ u)) :
    ((Interval.of m e).scaled u).hit? ≠ none := by
  obtain ⟨hlow, hhigh⟩ := Interval.value_inside hm e u
  obtain ⟨q, hq⟩ := Interval.exists_hit (Interval.unit_pos m e u) hlow hhigh
    ((Interval.scaled_contains_iff m e u g).mpr hg)
  rw [hq]
  exact nofun

/-- The intervals of full mantissas are so narrow that a grid of at most fifteen digits has one
point in them. -/
theorem full_grid_unique (h : Canonical m e) (hfull : 2 ^ 52 ≤ m) (hu : orderOf m e - 15 ≤ u)
    {p q : ℕ} (hp : RoundsTo m e (p * 10 ^ u)) (hq : RoundsTo m e (q * 10 ^ u)) : p = q :=
  hp.grid_unique
    ((grid_wide h hfull).trans_le (zpow_le_zpow_right₀ (by norm_num) hu)) hq

/-- A point of a grid as coarse as the number is the power of ten above it. -/
theorem power_of_coarse (h : Canonical m e) (hfull : 2 ^ 52 ≤ m) (hu : orderOf m e ≤ u) {g : ℕ}
    (hg : RoundsTo m e (g * 10 ^ u)) :
    u = orderOf m e ∧ RoundsTo m e ((1 : ℕ) * 10 ^ orderOf m e) := by
  have hm : m ≠ 0 := by omega
  have hpoint : (10 : ℚ) ^ orderOf m e ≤ g * 10 ^ u := by
    have hone : (1 : ℚ) ≤ g := by
      have hpos : 0 < g := by
        rw [Nat.pos_iff_ne_zero]
        rintro rfl
        have := hg.pos hm
        simp at this
      exact_mod_cast hpos
    calc (10 : ℚ) ^ orderOf m e ≤ 10 ^ u := zpow_le_zpow_right₀ (by norm_num) hu
      _ ≤ g * 10 ^ u := le_mul_of_one_le_left (ten_zpow_pos u).le hone
  have hpower : RoundsTo m e ((1 : ℕ) * 10 ^ orderOf m e) := by
    rw [Nat.cast_one, one_mul]
    exact hg.between hm (orderOf_spec h hm).2.le hpoint
  refine ⟨?_, hpower⟩
  rw [grid_refine g hu] at hg
  have hg' := full_grid_unique h hfull (by omega) hg hpower
  by_contra hne
  have hdvd : 10 ^ 1 ∣ g * 10 ^ (u - orderOf m e).toNat := (pow_dvd_pow 10 (by omega)).mul_left g
  rw [hg'] at hdvd
  omega

/-- The shortest decimal lies on every grid with a point in the interval. -/
theorem shortest_on_grid (h : Canonical m e) (hfull : 2 ^ 52 ≤ m) {g : ℕ}
    (hg : RoundsTo m e (g * 10 ^ u)) : ∃ k : ℕ, (shortest m e).toRat = k * 10 ^ u := by
  have hm : m ≠ 0 := by omega
  obtain ⟨j, -, q, hround, -, hshort, hnone⟩ := shortest_search h hm
  rw [hshort, trimZeros_toRat]
  change ∃ k : ℕ, (q : ℚ) * 10 ^ (orderOf m e - 1 - (j : ℤ)) = k * 10 ^ u
  rcases lt_or_ge u (orderOf m e) with hu | hu
  · -- The grid is searched, unless a coarser one has a hit before.
    have hj : j ≤ (orderOf m e - 1 - u).toNat := by
      by_contra hlt
      apply hit_of_rounds hm hg
      have hmiss := hnone (orderOf m e - 1 - u).toNat (by omega)
      rwa [Int.toNat_of_nonneg (by omega), sub_sub_cancel] at hmiss
    exact ⟨_, grid_refine q (by omega)⟩
  · -- The power of ten above the number is on every grid, so the first one has the hit.
    obtain ⟨rfl, hpower⟩ := power_of_coarse h hfull hu hg
    have hfirst : RoundsTo m e ((1 * 10 ^ (orderOf m e - (orderOf m e - 1)).toNat : ℕ) *
        10 ^ (orderOf m e - 1)) := grid_refine 1 (sub_le_self (orderOf m e) zero_le_one) ▸ hpower
    have hj : j = 0 := by
      by_contra hne
      apply hit_of_rounds hm hfirst
      simpa using hnone 0 (by omega)
    subst hj
    rw [Nat.cast_zero, sub_zero] at hround ⊢
    refine ⟨1, ?_⟩
    rw [full_grid_unique h hfull (by omega) hround hfirst, ← grid_refine 1 (by omega)]

/-- A decimal of fifteen digits that rounds to a number lies on the grid of fifteen digits. -/
theorem fifteen_digits_on_grid (h : Canonical m e) (hfull : 2 ^ 52 ≤ m) {d : ℕ} (hd : d < 10 ^ 15)
    (hround : RoundsTo m e (d * 10 ^ u)) : orderOf m e - 15 ≤ u := by
  have he := two_zpow_pos e
  have hmq : (2 : ℚ) ^ 52 ≤ m := by exact_mod_cast hfull
  have horder := (orderOf_spec h (by omega)).1
  by_contra hu
  -- On a finer grid it would be below the number by more than the interval is wide.
  have hstep : (10 : ℚ) ^ u ≤ 10 ^ (orderOf m e - 1 - 15) :=
    zpow_le_zpow_right₀ (by norm_num) (by omega)
  have hdq : (d : ℚ) + 1 ≤ 10 ^ 15 := by exact_mod_cast hd
  have hgap := (RoundsTo.self (by omega) e).sub_le hround
  have hlarge : (d : ℚ) * 10 ^ u ≤ (10 ^ 15 - 1) * 10 ^ (orderOf m e - 1 - 15) := by
    have hd₀ : (0 : ℚ) ≤ 10 ^ 15 - 1 := by norm_num
    exact mul_le_mul (by linarith) hstep (ten_zpow_pos u).le hd₀
  have hten := ten_zpow_pos (orderOf m e - 1 - 15)
  have hfullness : (2 : ℚ) ^ 52 * 2 ^ e ≤ m * 2 ^ e := by gcongr
  rw [ten_zpow_fifteen] at horder
  linarith

/-- At most fifteen digits are kept: they are the shortest decimal of the number they round to. -/
theorem shortest_eq_of_digits (h : Canonical m e) (hfull : 2 ^ 52 ≤ m) {d : ℕ} (hd : d < 10 ^ 15)
    (hround : RoundsTo m e (d * 10 ^ u)) : (shortest m e).toRat = d * 10 ^ u := by
  have hu := fifteen_digits_on_grid h hfull hd hround
  rw [grid_refine d hu] at hround ⊢
  obtain ⟨k, hk⟩ := shortest_on_grid h hfull hround
  have hshort := shortest_rounds h (by omega)
  rw [hk] at hshort ⊢
  rw [full_grid_unique h hfull le_rfl hshort hround]

theorem full_of_whole (h : Canonical m e) {N : ℕ} (hm : m ≠ 0) (hN : (m : ℚ) * 2 ^ e = N) :
    2 ^ 52 ≤ m := by
  have hself : RoundsTo m e N := hN ▸ RoundsTo.self hm e
  have hpos : 0 < N := by exact_mod_cast hself.pos hm
  apply full_of_rounds h hself
  calc (10 : ℚ) ^ (-15 : ℤ) ≤ 1 := by norm_num
    _ ≤ N := by exact_mod_cast hpos

/-- The shortest decimal of a whole number below `10 ^ 16` is the number. -/
theorem shortest_whole (h : Canonical m e) {N : ℕ} (hm : m ≠ 0) (hN : (m : ℚ) * 2 ^ e = N)
    (hlt : N < 10 ^ 16) : (shortest m e).toRat = N := by
  have hself : RoundsTo m e N := hN ▸ RoundsTo.self hm e
  obtain ⟨k, hk⟩ :=
    shortest_on_grid (u := 0) (g := N) h (full_of_whole h hm hN) (by simpa using hself)
  rw [zpow_zero, mul_one] at hk
  have hround := shortest_rounds h hm
  rw [hk] at hround
  rw [hk]
  rcases lt_or_ge 0 e with he | he
  · obtain rfl := exponent_eq_one h he hself (by exact_mod_cast hlt)
    obtain ⟨hlow, hhigh⟩ := close_of_rounds_one hround
    have hexact : k = 2 * m := by
      rcases shortest_even h hm hk with heven | heven <;> omega
    rw [← hN, hexact, zpow_one]
    push_cast
    ring
  · rw [eq_of_rounds_of_nonpos he hround, hN]

/-- A whole decimal that does not end in a zero has no places. -/
theorem exponent_nonneg {x : Decimal} {N : ℕ} (hx : x.digits % 10 ≠ 0) (hN : x.toRat = N) :
    0 ≤ x.exponent := by
  by_contra hneg
  obtain ⟨k, hk⟩ : ∃ k : ℕ, x.exponent = -(k + 1 : ℕ) := ⟨(-x.exponent - 1).toNat, by omega⟩
  unfold toRat at hN
  rw [hk, zpow_neg, zpow_natCast, ← div_eq_mul_inv, div_eq_iff (by positivity)] at hN
  have hdigits : x.digits = N * 10 ^ k * 10 := by
    rw [mul_assoc, ← pow_succ]
    exact_mod_cast hN
  omega

end Decimal

end VectorPath
