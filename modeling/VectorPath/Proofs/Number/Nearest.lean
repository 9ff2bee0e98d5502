import VectorPath.Proofs.Number.Equality

/-!
# The nearest binary64 number

The numbers next to a canonical pair are one unit of its mantissa away, and half a unit below a
power of two. So the rationals that round to the pair are those to which no other number is nearer,
with the even mantissa where two are equally near. Rounding a quotient gives a pair to which the
quotient rounds, whatever the quotient is.
-/

namespace VectorPath

/-- An integer that no other one is nearer to, and the even one of two that are equally near. -/
structure IsNearestInteger (q : ℚ) (n : ℤ) : Prop where
  close : |q - n| ≤ 1 / 2
  even : |q - n| = 1 / 2 → Even n

namespace IsNearestInteger

variable {q : ℚ} {m n : ℤ}

theorem neg (h : IsNearestInteger q n) : IsNearestInteger (-q) (-n) := by
  have hdist : |-q - (-n : ℤ)| = |q - n| := by
    rw [Int.cast_neg, ← neg_sub', abs_neg]
  refine ⟨hdist ▸ h.close, fun htie => ?_⟩
  rw [even_neg]
  exact h.even (hdist ▸ htie)

/-- Two nearest integers would be neighbours at equal distance, and only one of them is even. -/
theorem unique (h : IsNearestInteger q m) (h' : IsNearestInteger q n) : m = n := by
  obtain ⟨hm₁, hm₂⟩ := abs_le.mp h.close
  obtain ⟨hn₁, hn₂⟩ := abs_le.mp h'.close
  have hle : m ≤ n + 1 := by
    have : (m : ℚ) ≤ n + 1 := by linarith
    exact_mod_cast this
  have hge : n ≤ m + 1 := by
    have : (n : ℚ) ≤ m + 1 := by linarith
    exact_mod_cast this
  have hapart : m ≠ n → |q - m| = 1 / 2 ∧ |q - n| = 1 / 2 := by
    intro hne
    rcases (by omega : m = n + 1 ∨ n = m + 1) with rfl | rfl
    · push_cast at hm₁ hm₂ ⊢
      rw [abs_eq (by norm_num), abs_eq (by norm_num)]
      exact ⟨.inr (by linarith), .inl (by linarith)⟩
    · push_cast at hn₁ hn₂ ⊢
      rw [abs_eq (by norm_num), abs_eq (by norm_num)]
      exact ⟨.inl (by linarith), .inr (by linarith)⟩
  by_contra hne
  obtain ⟨hm, hn⟩ := hapart hne
  obtain ⟨i, hi⟩ := h.even hm
  obtain ⟨j, hj⟩ := h'.even hn
  omega

end IsNearestInteger

theorem isNearestInteger_divHalfEven (n : ℕ) {d : ℕ} (hd : 0 < d) :
    IsNearestInteger (n / d) (divHalfEven n d) := by
  refine ⟨by exact_mod_cast divHalfEven_close n hd, fun htie => ?_⟩
  have hdq : (0 : ℚ) < d := by exact_mod_cast hd
  have hn : n = d * (n / d) + n % d := (Nat.div_add_mod n d).symm
  have hr : n % d < d := Nat.mod_lt n hd
  rw [Int.even_coe_nat]
  rw [abs_eq (by norm_num), sub_eq_iff_eq_add, sub_eq_iff_eq_add, div_eq_iff hdq.ne',
    div_eq_iff hdq.ne'] at htie
  have htwice : 2 * n = (2 * divHalfEven n d + 1) * d ∨ 2 * n + d = 2 * divHalfEven n d * d := by
    rcases htie with h | h
    · left
      have : (2 : ℚ) * n = (2 * divHalfEven n d + 1) * d := by
        rw [h]
        push_cast
        ring
      exact_mod_cast this
    · right
      have : (2 : ℚ) * n + d = 2 * divHalfEven n d * d := by
        rw [h]
        push_cast
        ring
      exact_mod_cast this
  revert htwice
  unfold divHalfEven
  generalize n / d = a at *
  generalize n % d = r at *
  subst hn
  split_ifs with h₁ h₂
  · rintro (h | h)
    · exact absurd h (by nlinarith)
    · exact absurd h (by nlinarith)
  · rintro (h | h)
    · exact absurd h (by nlinarith)
    · exact absurd h (by nlinarith)
  · intro _
    rw [Nat.even_iff]
    omega

theorem isNearestInteger_divScaled (n : ℕ) {d : ℕ} (hd : 0 < d) (e : ℤ) :
    IsNearestInteger (n / d / 2 ^ e) (divScaled n d e) := by
  obtain ⟨n', d', hd', hdiv, hq⟩ := divScaled_eq n d hd e
  rw [hdiv, ← hq]
  exact isNearestInteger_divHalfEven n' hd'

namespace RoundsTo

variable {m : ℕ} {e : ℤ} {q : ℚ}

theorem zero (e : ℤ) : RoundsTo 0 e 0 := by
  refine ⟨?_, ?_, fun hodd => absurd hodd (by decide)⟩ <;> simp [Decimal.lowerQuarters]

theorem lowerQuarters_power (hm : m = 2 ^ 52) (he : e ≠ -1074) :
    (Decimal.lowerQuarters m e : ℚ) = 4 * m - 1 := by
  unfold Decimal.lowerQuarters
  rw [if_pos ⟨hm, he⟩, Nat.cast_sub (by omega)]
  push_cast
  rfl

theorem lowerQuarters_other (hm : m ≠ 0) (h : ¬ (m = 2 ^ 52 ∧ e ≠ -1074)) :
    (Decimal.lowerQuarters m e : ℚ) = 4 * m - 2 := by
  unfold Decimal.lowerQuarters
  rw [if_neg h, Nat.cast_sub (by omega)]
  push_cast
  rfl

theorem above (h : RoundsTo m e q) : (Decimal.lowerQuarters m e : ℚ) * 2 ^ e ≤ 4 * q := by
  have hlow := h.low
  rwa [mul_div_assoc', le_div_iff₀ (two_zpow_pos e)] at hlow

theorem below (h : RoundsTo m e q) : 4 * q ≤ (4 * m + 2) * 2 ^ e := by
  have hhigh := h.high
  rwa [mul_div_assoc', div_le_iff₀ (two_zpow_pos e)] at hhigh

/-- A number is half a unit away from what rounds to it, or nearer. -/
theorem close (h : RoundsTo m e q) : 2 * |q - m * 2 ^ e| ≤ 2 ^ e := by
  have hlow := mul_le_mul_of_nonneg_right (lowerQuarters_ge m e) (two_zpow_pos e).le
  have hdist : |2 * (q - m * 2 ^ e)| ≤ 2 ^ e :=
    abs_le.mpr ⟨by linarith [h.above], by linarith [h.below]⟩
  rwa [abs_mul, abs_two] at hdist

/-- The ends of the interval belong to it if the mantissa is even. -/
theorem inside (h : RoundsTo m e q) (hodd : ¬ Even m) :
    (Decimal.lowerQuarters m e : ℚ) * 2 ^ e < 4 * q ∧ 4 * q < (4 * m + 2) * 2 ^ e := by
  obtain ⟨hlow, hhigh⟩ := h.strict (Nat.not_even_iff.mp hodd)
  rw [mul_div_assoc', lt_div_iff₀ (two_zpow_pos e)] at hlow
  rw [mul_div_assoc', div_lt_iff₀ (two_zpow_pos e)] at hhigh
  exact ⟨hlow, hhigh⟩

end RoundsTo

namespace Binary64

variable {n d m : ℕ} {e f : ℤ} {q : ℚ}

theorem assemble_eq_finite {s t : Bool} {h : Canonical n f}
    (heq : assemble s m e = .finite t n f h) : s = t ∧ m = n ∧ e = f := by
  unfold assemble at heq
  split_ifs at heq
  simpa using heq

/-- A quotient that is scaled by an exponent and rounded to a mantissa rounds to the pair, if it is
not below the range of the exponent. -/
theorem roundsTo_divScaled (hd : 0 < d) (hrange : e = -1074 ∨ (2 : ℚ) ^ 52 ≤ n / d / 2 ^ e) :
    RoundsTo (divScaled n d e) e (n / d) := by
  have hnear := isNearestInteger_divScaled n hd e
  generalize divScaled n d e = m at *
  obtain ⟨hlow, hhigh⟩ := abs_le.mp hnear.close
  rw [Int.cast_natCast] at hlow hhigh
  have hodd : m % 2 = 1 → |(n : ℚ) / d / 2 ^ e - m| ≠ 1 / 2 := by
    intro hodd htie
    have heven := hnear.even (by exact_mod_cast htie)
    rw [Int.even_coe_nat, Nat.even_iff] at heven
    omega
  -- The lower end is nearer only for a power of two, which the quotient does not fall below.
  by_cases hpow : m = 2 ^ 52 ∧ e ≠ -1074
  · have hquarters := RoundsTo.lowerQuarters_power hpow.1 hpow.2
    have hmq : (m : ℚ) = 2 ^ 52 := by exact_mod_cast hpow.1
    have hge := hrange.resolve_left hpow.2
    rw [← hmq] at hge
    refine ⟨by rw [hquarters]; linarith, by linarith, fun h => ?_⟩
    rw [hpow.1] at h
    norm_num at h
  · have hquarters : (Decimal.lowerQuarters m e : ℚ) ≤ 4 * (n / d / 2 ^ e) := by
      rcases eq_or_ne m 0 with rfl | hm
      · have := two_zpow_pos e
        simp only [Decimal.lowerQuarters, if_neg hpow, Nat.mul_zero, Nat.zero_sub, Nat.cast_zero]
        positivity
      · rw [RoundsTo.lowerQuarters_other hm hpow]
        linarith
    refine ⟨hquarters, by linarith, fun h => ?_⟩
    have hstrict : |(n : ℚ) / d / 2 ^ e - m| < 1 / 2 :=
      lt_of_le_of_ne (by exact_mod_cast hnear.close) (hodd h)
    obtain ⟨hlow', hhigh'⟩ := abs_lt.mp hstrict
    rw [RoundsTo.lowerQuarters_other (by omega) hpow]
    exact ⟨by linarith, by linarith⟩

theorem scaled_lt (hn : n ≠ 0) (hd : 0 < d) (he : binaryOrder n d - 52 ≤ e) :
    (n : ℚ) / d / 2 ^ e < 2 ^ 53 := by
  rw [div_lt_iff₀ (two_zpow_pos e), ← zpow_natCast, ← zpow_add₀ (by norm_num)]
  refine (binaryOrder_spec hn hd).2.trans_le (zpow_le_zpow_right₀ (by norm_num) ?_)
  push_cast
  omega

theorem le_scaled (hn : n ≠ 0) (hd : 0 < d) (he : e = binaryOrder n d - 52) :
    (2 : ℚ) ^ 52 ≤ n / d / 2 ^ e := by
  rw [le_div_iff₀ (two_zpow_pos e), ← zpow_natCast, ← zpow_add₀ (by norm_num), he]
  push_cast
  rw [add_sub_cancel]
  exact (binaryOrder_spec hn hd).1

/-- A mantissa that rounds up to `2 ^ 53` is the power of two at the next exponent. -/
theorem roundsTo_carry (h : RoundsTo (2 ^ 53) e q) (he : -1074 ≤ e) (hlt : q / 2 ^ e < 2 ^ 53) :
    RoundsTo (2 ^ 52) (e + 1) q := by
  have hpos := two_zpow_pos e
  have hhalf : q / 2 ^ (e + 1) = q / 2 ^ e / 2 := by
    rw [two_zpow_add_one, mul_comm, div_div]
  have hlow := (RoundsTo.lowerQuarters_ge _ _).trans h.low
  refine ⟨?_, ?_, fun hodd => absurd hodd (by norm_num)⟩
  · rw [RoundsTo.lowerQuarters_power rfl (by omega), hhalf]
    push_cast at hlow ⊢
    linarith
  · rw [hhalf]
    push_cast
    linarith

theorem ofRatio_roundsTo {s t : Bool} {h : Canonical m e} (hd : 0 < d)
    (heq : ofRatio s n d = .finite t m e h) : s = t ∧ RoundsTo m e (n / d) := by
  unfold ofRatio at heq
  split_ifs at heq with hn
  · obtain ⟨rfl, rfl, rfl⟩ : s = t ∧ 0 = m ∧ -1074 = e := by simpa [zero] using heq
    rw [hn, Nat.cast_zero, zero_div]
    exact ⟨rfl, RoundsTo.zero _⟩
  dsimp only at heq
  generalize hE : max (binaryOrder n d - 52) (-1074) = E at heq
  have hround := roundsTo_divScaled (e := E) (n := n) hd <| by
    by_cases hleast : E = -1074
    · exact .inl hleast
    · exact .inr (le_scaled hn hd (by omega))
  split_ifs at heq with hcarry
  · obtain ⟨rfl, rfl, rfl⟩ := assemble_eq_finite heq
    rw [hcarry] at hround
    exact ⟨rfl, roundsTo_carry hround (by omega) (scaled_lt hn hd (by omega))⟩
  · obtain ⟨rfl, rfl, rfl⟩ := assemble_eq_finite heq
    exact ⟨rfl, hround⟩

theorem two_zpow_double_le (h : f < e) : (2 : ℚ) * 2 ^ f ≤ 2 ^ e := by
  rw [← two_zpow_add_one]
  exact zpow_le_zpow_right₀ (by norm_num) h

/-- A pair with a larger exponent is a multiple of the unit of a smaller one. -/
theorem exists_multiple (n : ℕ) (h : e ≤ f) : ∃ N : ℕ, (n : ℚ) * 2 ^ f = N * 2 ^ e := by
  obtain ⟨k, rfl⟩ : ∃ k : ℕ, f = e + k := ⟨(f - e).toNat, by omega⟩
  refine ⟨n * 2 ^ k, ?_⟩
  rw [zpow_add₀ (by norm_num), zpow_natCast]
  push_cast
  ring

/-- The next larger number is one unit of the mantissa away. -/
theorem next_above (h : Canonical m e) (h' : Canonical n f) (hlt : (m : ℚ) * 2 ^ e < n * 2 ^ f) :
    ((m : ℚ) + 1) * 2 ^ e ≤ n * 2 ^ f := by
  have hpos := two_zpow_pos e
  rcases le_or_gt e f with hef | hef
  · obtain ⟨N, hN⟩ := exists_multiple n hef
    rw [hN] at hlt ⊢
    have hlt' : m < N := by exact_mod_cast lt_of_mul_lt_mul_right hlt hpos.le
    gcongr
    exact_mod_cast hlt'
  · -- A smaller exponent belongs to smaller numbers.
    have hm : (2 : ℚ) ^ 52 ≤ m := by
      exact_mod_cast h.2.2.2.resolve_right (by have := h'.2.1; omega)
    have hn : (n : ℚ) < 2 ^ 53 := by exact_mod_cast h'.1
    have hstep := two_zpow_double_le hef
    have := two_zpow_pos f
    nlinarith

/-- The next smaller number is as far below the pair as the interval of the pair reaches twice. -/
theorem next_below (h : Canonical m e) (h' : Canonical n f) (hlt : (n : ℚ) * 2 ^ f < m * 2 ^ e) :
    2 * ((n : ℚ) * 2 ^ f) ≤ (Decimal.lowerQuarters m e - 2 * m) * 2 ^ e := by
  have hpos := two_zpow_pos e
  have hquarters := RoundsTo.lowerQuarters_ge m e
  rcases le_or_gt e f with hef | hef
  · obtain ⟨N, hN⟩ := exists_multiple n hef
    rw [hN] at hlt ⊢
    have hlt' : N < m := by exact_mod_cast lt_of_mul_lt_mul_right hlt hpos.le
    have hle : (N : ℚ) + 1 ≤ m := by exact_mod_cast hlt'
    rw [← mul_assoc]
    gcongr
    linarith
  · have hfull := h.2.2.2.resolve_right (by have := h'.2.1; omega)
    have hn : (n : ℚ) + 1 ≤ 2 ^ 53 := by exact_mod_cast h'.1
    have hstep := two_zpow_double_le hef
    have hf := two_zpow_pos f
    by_cases hpow : m = 2 ^ 52
    · have hexact := RoundsTo.lowerQuarters_power (e := e) hpow (by have := h'.2.1; omega)
      have hmq : (m : ℚ) = 2 ^ 52 := by exact_mod_cast hpow
      rw [hexact, hmq]
      nlinarith
    · have hm : (2 : ℚ) ^ 52 + 1 ≤ m := by exact_mod_cast (by omega : 2 ^ 52 + 1 ≤ m)
      nlinarith

/-- A finite number to which no other finite number is nearer, with an even mantissa if a number of
another value is equally near. -/
inductive IsNearestTo (q : ℚ) : Binary64 → Prop
  | finite {s : Bool} {m : ℕ} {e : ℤ} {h : Canonical m e} :
      (∀ y w, exact y = .rational w → |q - signed s m * 2 ^ e| ≤ |q - w|) →
      (∀ y w, exact y = .rational w → |q - signed s m * 2 ^ e| = |q - w| →
        signed s m * 2 ^ e ≠ w → Even m) →
      IsNearestTo q (.finite s m e h)

/-- Among the numbers that are not negative, the interval of a pair is nearest to it. -/
theorem nearest_of_roundsTo (h : Canonical m e) (hq : RoundsTo m e q)
    (h' : Canonical n f) :
    |q - m * 2 ^ e| ≤ |q - n * 2 ^ f| ∧
      (|q - m * 2 ^ e| = |q - n * 2 ^ f| → (m : ℚ) * 2 ^ e ≠ n * 2 ^ f → Even m) := by
  have he := two_zpow_pos e
  have hlow := hq.above
  have hhigh := hq.below
  rcases lt_trichotomy ((n : ℚ) * 2 ^ f) (m * 2 ^ e) with hlt | heq | hlt
  · have hnext := next_below h h' hlt
    rw [abs_of_pos (by linarith : 0 < q - n * 2 ^ f)]
    refine ⟨abs_le.mpr ⟨by linarith, by linarith⟩, fun htie _ => ?_⟩
    by_contra hne
    obtain ⟨h₁, -⟩ := hq.inside hne
    rcases abs_eq_abs.mp (htie.trans (abs_of_pos (by linarith : 0 < q - n * 2 ^ f)).symm) with
      h₂ | h₂ <;> linarith
  · rw [heq]
    exact ⟨le_rfl, fun _ hne => absurd rfl hne⟩
  · have hnext := next_above h h' hlt
    rw [abs_of_neg (by linarith : q - n * 2 ^ f < 0)]
    refine ⟨abs_le.mpr ⟨by linarith, by linarith⟩, fun htie _ => ?_⟩
    by_contra hne
    obtain ⟨-, h₂⟩ := hq.inside hne
    rcases abs_eq_abs.mp (htie.trans (abs_of_neg (by linarith : q - n * 2 ^ f < 0)).symm) with
      h₃ | h₃ <;> linarith

def withSign (negative : Bool) (q : ℚ) : ℚ := if negative then -q else q

theorem withSign_sub (s : Bool) (q r : ℚ) : |withSign s q - withSign s r| = |q - r| := by
  cases s
  · rfl
  · change |-q - -r| = _
    rw [← neg_sub', abs_neg]

theorem withSign_zero (s : Bool) : withSign s 0 = 0 := by
  cases s <;> simp [withSign]

theorem withSign_inj (s : Bool) (q r : ℚ) : withSign s q = withSign s r ↔ q = r := by
  cases s
  · rfl
  · exact neg_inj

theorem signed_cast_mul (s : Bool) (m : ℕ) (q : ℚ) : (signed s m : ℚ) * q = withSign s (m * q) := by
  rw [signed_cast]
  cases s
  · rfl
  · exact neg_mul _ _

theorem signed_natAbs (i : ℤ) : signed (i < 0) i.natAbs = i := by
  unfold signed
  rcases lt_or_ge i 0 with hi | hi
  · rw [if_pos (decide_eq_true hi)]
    omega
  · rw [if_neg fun h => absurd (of_decide_eq_true h) (not_lt.mpr hi)]
    omega

theorem withSign_natAbs (i : ℤ) : withSign (i < 0) i.natAbs = i := by
  rw [← mul_one (i.natAbs : ℚ), ← signed_cast_mul, signed_natAbs, mul_one]

/-- A number of the other sign is farther away than zero is. -/
theorem withSign_other {s t : Bool} (hne : s ≠ t) (hq : 0 ≤ q) {w : ℚ} (hw : 0 ≤ w) :
    |withSign s q - withSign t w| = q + w := by
  cases s <;> cases t
  · exact absurd rfl hne
  · change |q - -w| = _
    rw [sub_neg_eq_add, abs_of_nonneg (by linarith)]
  · change |-q - w| = _
    rw [← neg_add', abs_neg, abs_of_nonneg (by linarith)]
  · exact absurd rfl hne

theorem isNearestTo_of_roundsTo (h : Canonical m e) (hq₀ : 0 ≤ q) (hq : RoundsTo m e q) (s : Bool) :
    IsNearestTo (withSign s q) (.finite s m e h) := by
  have hall : ∀ y w, exact y = .rational w → |q - m * 2 ^ e| ≤ |withSign s q - w| ∧
      (|q - m * 2 ^ e| = |withSign s q - w| → withSign s (m * 2 ^ e) ≠ w → Even m) := by
    rintro (_ | _ | ⟨t, n, f, h'⟩) w hw
    · cases hw
    · cases hw
    obtain rfl : withSign t (n * 2 ^ f) = w := by
      rw [← signed_cast_mul]
      exact Extended.rational.inj hw
    by_cases hst : s = t
    · subst hst
      rw [withSign_sub, ne_eq, withSign_inj]
      exact nearest_of_roundsTo h hq h'
    · -- Zero is as near as anything on its other side.
      have hzero := nearest_of_roundsTo h hq canonical_zero
      have hf := two_zpow_pos f
      have hn : (0 : ℚ) ≤ n * 2 ^ f := by positivity
      rw [Nat.cast_zero, zero_mul, sub_zero, abs_of_nonneg hq₀] at hzero
      rw [withSign_other hst hq₀ hn]
      refine ⟨hzero.1.trans (by linarith), fun htie hne => ?_⟩
      have hw₀ : (n : ℚ) * 2 ^ f = 0 := le_antisymm (by linarith [hzero.1]) hn
      rw [hw₀, add_zero] at htie
      refine hzero.2 htie fun hm => hne ?_
      rw [hm, hw₀]
      cases s <;> cases t <;> simp [withSign]
  refine .finite (fun y w hw => ?_) fun y w hw htie hne => ?_
  · rw [signed_cast_mul, withSign_sub]
    exact (hall y w hw).1
  · rw [signed_cast_mul, withSign_sub] at htie
    rw [signed_cast_mul] at hne
    exact (hall y w hw).2 htie hne

def ofRat (q : ℚ) : Binary64 := ofRatio (q < 0) q.num.natAbs q.den

theorem natAbs_num_div_den (q : ℚ) : (q.num.natAbs : ℚ) / q.den = |q| := by
  rw [Nat.cast_natAbs, Int.cast_abs]
  conv_rhs => rw [← Rat.num_div_den q, abs_div, Nat.abs_cast]

theorem ofRat_eq (h : Canonical m e) (hm : m ≠ 0) (hq : RoundsTo m e q) (s : Bool) :
    ofRat (withSign s q) = .finite s m e h := by
  have hpos := hq.pos hm
  have hsign : decide (withSign s q < 0) = s := by
    cases s
    · exact decide_eq_false (not_lt.mpr hpos.le)
    · exact decide_eq_true (neg_neg_of_pos hpos)
  have habs : |withSign s q| = q := by
    cases s
    · exact abs_of_pos hpos
    · exact (abs_neg q).trans (abs_of_pos hpos)
  unfold ofRat
  rw [hsign]
  apply ofRatio_eq h hm (Rat.den_pos _)
  rwa [natAbs_num_div_den, habs]

end Binary64

end VectorPath
