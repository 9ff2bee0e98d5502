import VectorPath.Proofs.Number.Canonical
import VectorPath.Proofs.Path.Failure
import VectorPath.Proofs.Path.Grammar

/-!
# Numbers rounded to decimal places

A number to some places is the binary64 number nearest to its decimal, so the decimal lies in the
interval of the rounded number, and the shortest decimal of the rounded number has no more places.
It is the decimal itself where fifteen digits hold it. Rounding once more gives the same number: if
the numbers are denser than the decimals the decimal is found again, and otherwise what is found is
too near to the number to round to another one.
-/

namespace VectorPath

/-- A decimal that has at most the given number of significant digits. -/
def HasDigits (k : ℕ) (r : ℚ) : Prop := ∃ d u : ℤ, |d| < 10 ^ k ∧ r = d * 10 ^ u

theorem isNearestInteger_self (n : ℤ) : IsNearestInteger n n := by
  refine ⟨by norm_num, fun h => ?_⟩
  rw [sub_self, abs_zero] at h
  norm_num at h

theorem isNearestInteger_of_lt {q : ℚ} {n : ℤ} (h : |q - n| < 1 / 2) : IsNearestInteger q n :=
  ⟨h.le, fun htie => absurd htie h.ne⟩

/-- What is less than half a unit away rounds to the number, except below a power of two. -/
theorem RoundsTo.of_close {m : ℕ} {e : ℤ} {q : ℚ} (hm : m ≠ 0) (hpow : m ≠ 2 ^ 52)
    (hclose : 2 * |q - m * 2 ^ e| < 2 ^ e) : RoundsTo m e q := by
  have hquarters := RoundsTo.lowerQuarters_other (e := e) hm fun h => hpow h.1
  have he := two_zpow_pos e
  obtain ⟨hlow, hhigh⟩ : -2 ^ e < 2 * (q - m * 2 ^ e) ∧ 2 * (q - m * 2 ^ e) < 2 ^ e := by
    rw [← abs_lt, abs_mul, abs_two]
    exact hclose
  have hstrict : (4 * m - 2 : ℚ) < 4 * (q / 2 ^ e) ∧ 4 * (q / 2 ^ e) < 4 * m + 2 := by
    rw [mul_div_assoc', lt_div_iff₀ he, div_lt_iff₀ he]
    constructor <;> linarith
  exact ⟨hquarters ▸ hstrict.1.le, hstrict.2.le, fun _ => hquarters ▸ hstrict⟩

namespace Binary64

variable {places m n N : ℕ} {e f : ℤ} {s : Bool}

theorem exponent_of_zero (h : Canonical 0 e) : e = -1074 :=
  h.2.2.2.resolve_left (by norm_num)

theorem units_nearest (places m k : ℕ) :
    IsNearestInteger (m * 10 ^ places / 2 ^ k) (unitsAt places m k : ℕ) := by
  have hnear := isNearestInteger_divHalfEven (m * 10 ^ places) (d := 2 ^ k) (by positivity)
  push_cast at hnear
  exact hnear

/-- A number to some places is the one to which the nearest multiple of a unit of the places
rounds. -/
theorem toPlaces_finite (places : ℕ) (s : Bool) (h : Canonical m e) :
    ∃ N n f, ∃ h' : Canonical n f, (Binary64.finite s m e h).toPlaces places = .finite s n f h' ∧
      IsNearestInteger (m * 2 ^ e * 10 ^ places) (N : ℕ) ∧ RoundsTo n f (N / 10 ^ places) := by
  rcases e with k | k
  · refine ⟨m * 2 ^ k * 10 ^ places, m, k, h, rfl, ?_, ?_⟩
    · convert isNearestInteger_self (m * 2 ^ k * 10 ^ places : ℕ) using 1
      push_cast
      rw [Int.ofNat_eq_natCast, zpow_natCast]
    · have hvalue : ((m * 2 ^ k * 10 ^ places : ℕ) : ℚ) / 10 ^ places = m * 2 ^ (k : ℤ) := by
        push_cast
        rw [mul_div_cancel_right₀ _ (by positivity), zpow_natCast]
      rw [hvalue]
      rcases eq_or_ne m 0 with rfl | hm
      · simpa using RoundsTo.zero k
      · exact RoundsTo.self hm k
  · have hfinite := toPlaces_isFinite places (x := .finite s m (.negSucc k) h) rfl
    generalize hy : (Binary64.finite s m (.negSucc k) h).toPlaces places = y at hfinite
    rcases y with _ | t | ⟨t, n, f, h'⟩
    · cases hfinite
    · cases hfinite
    obtain ⟨rfl, hround⟩ := ofRatio_roundsTo (by positivity) hy
    refine ⟨unitsAt places m (k + 1), n, f, h', rfl, ?_, by exact_mod_cast hround⟩
    have hscaled : (m : ℚ) * 2 ^ Int.negSucc k * 10 ^ places = m * 10 ^ places / 2 ^ (k + 1) := by
      rw [zpow_negSucc]
      field_simp
    rw [hscaled]
    exact units_nearest places m (k + 1)

theorem places_large (hp : places ≤ 15) (hN : N ≠ 0) :
    (10 : ℚ) ^ (-15 : ℤ) ≤ N / 10 ^ places := by
  have hone : (1 : ℚ) ≤ N := by exact_mod_cast Nat.one_le_iff_ne_zero.mpr hN
  calc (10 : ℚ) ^ (-15 : ℤ) ≤ 10 ^ (-(places : ℤ)) :=
        zpow_le_zpow_right₀ (by norm_num) (by omega)
    _ = 1 / 10 ^ places := by rw [zpow_neg, zpow_natCast, one_div]
    _ ≤ N / 10 ^ places := by gcongr

/-- Only zero is rounded to zero, since no decimal of fifteen places is that small. -/
theorem units_eq_zero (hp : places ≤ 15) (h : Canonical 0 f)
    (hround : RoundsTo 0 f (N / 10 ^ places)) : N = 0 := by
  by_contra hN
  have := full_of_rounds h hround (places_large hp hN)
  omega

theorem units_ne_zero (hn : n ≠ 0) (hround : RoundsTo n f (N / 10 ^ places)) : N ≠ 0 := by
  rintro rfl
  have := hround.pos hn
  simp at this

/-- Where numbers are denser than the decimals, the nearest decimal is the one that was rounded. -/
theorem units_of_dense {k : ℕ} (hdense : 10 ^ places < 2 ^ (k + 1))
    (hround : RoundsTo n (.negSucc k) (N / 10 ^ places)) : unitsAt places n (k + 1) = N := by
  have hten : (0 : ℚ) < 10 ^ places := by positivity
  have hdenseq : (10 : ℚ) ^ places < 2 ^ (k + 1) := by exact_mod_cast hdense
  have hclose := hround.close
  rw [zpow_negSucc] at hclose
  have hsame : IsNearestInteger (n * 10 ^ places / 2 ^ (k + 1)) (N : ℕ) := by
    apply isNearestInteger_of_lt
    have hscaled : (n : ℚ) * 10 ^ places / 2 ^ (k + 1) - ((N : ℕ) : ℤ) =
        -((N / 10 ^ places - n * (2 ^ (k + 1))⁻¹) * 10 ^ places) := by
      push_cast
      field_simp
      ring
    rw [hscaled, abs_neg, abs_mul, abs_of_pos hten]
    calc |(N : ℚ) / 10 ^ places - n * (2 ^ (k + 1))⁻¹| * 10 ^ places
        ≤ (2 ^ (k + 1))⁻¹ / 2 * 10 ^ places := by gcongr; linarith
      _ < 1 / 2 := by
        rw [inv_eq_one_div, div_div, div_mul_eq_mul_div, one_mul, div_lt_iff₀ (by positivity)]
        linarith
  exact_mod_cast (units_nearest places n (k + 1)).unique hsame

/-- A number that has no more places than the decimals is one of them. -/
theorem units_of_dvd {k : ℕ} (hdvd : 2 ^ (k + 1) ∣ n * 10 ^ places) :
    (unitsAt places n (k + 1) : ℚ) / 10 ^ places = n * 2 ^ Int.negSucc k := by
  obtain ⟨j, hj⟩ := hdvd
  have hjq : (n : ℚ) * 10 ^ places = 2 ^ (k + 1) * j := by exact_mod_cast hj
  have hquotient : (n : ℚ) * 10 ^ places / 2 ^ (k + 1) = (j : ℤ) := by
    rw [hjq, Int.cast_natCast, mul_div_cancel_left₀ _ (by positivity)]
  have hnear := units_nearest places n (k + 1)
  rw [hquotient] at hnear
  have hunits : unitsAt places n (k + 1) = j := by
    exact_mod_cast hnear.unique (isNearestInteger_self j)
  rw [hunits, zpow_negSucc]
  field_simp
  linarith

/-- Where the decimals are denser, the nearest one is within half a unit of the number. -/
theorem units_round_of_sparse {k : ℕ} (hn : n ≠ 0) (hp : places ≤ 15)
    (hsparse : 2 ^ (k + 1) ≤ 10 ^ places) :
    RoundsTo n (.negSucc k) (unitsAt places n (k + 1) / 10 ^ places) := by
  have hten : (0 : ℚ) < 10 ^ places := by positivity
  have htwo : (0 : ℚ) < 2 ^ (k + 1) := by positivity
  by_cases hdvd : 2 ^ (k + 1) ∣ n * 10 ^ places
  · rw [units_of_dvd hdvd]
    exact RoundsTo.self hn _
  · have hpow : n ≠ 2 ^ 52 := by
      rintro rfl
      have hlt : 2 ^ (k + 1) < 2 ^ 52 := by
        calc 2 ^ (k + 1) ≤ 10 ^ places := hsparse
          _ ≤ 10 ^ 15 := Nat.pow_le_pow_right (by norm_num) hp
          _ < 2 ^ 52 := by norm_num
      have hk := (Nat.pow_lt_pow_iff_right (by norm_num)).mp hlt
      exact hdvd ((pow_dvd_pow 2 hk.le).mul_right _)
    have hstrict : 2 ^ (k + 1) < 10 ^ places := by
      refine lt_of_le_of_ne hsparse fun heq => hdvd ?_
      rw [heq]
      exact Nat.dvd_mul_left ..
    have hstrictq : (2 : ℚ) ^ (k + 1) < 10 ^ places := by exact_mod_cast hstrict
    apply RoundsTo.of_close hn hpow
    have hclose := (units_nearest places n (k + 1)).close
    have hscaled : (unitsAt places n (k + 1) : ℚ) / 10 ^ places - n * 2 ^ Int.negSucc k =
        -(n * 10 ^ places / 2 ^ (k + 1) - ((unitsAt places n (k + 1) : ℕ) : ℤ)) / 10 ^ places := by
      rw [zpow_negSucc]
      push_cast
      field_simp
      ring
    rw [hscaled, abs_div, abs_neg, abs_of_pos hten, zpow_negSucc, mul_div_assoc']
    calc 2 * |(n : ℚ) * 10 ^ places / 2 ^ (k + 1) - ((unitsAt places n (k + 1) : ℕ) : ℤ)| /
            10 ^ places
        ≤ 1 / 10 ^ places := by gcongr; linarith
      _ < (2 ^ (k + 1))⁻¹ := by
        rw [inv_eq_one_div]
        exact one_div_lt_one_div_of_lt htwo hstrictq

theorem unitsAt_zero (places k : ℕ) : unitsAt places 0 k = 0 := by
  unfold unitsAt divHalfEven
  simp

/-- A number that a decimal of the places rounds to is rounded to itself. -/
theorem toPlaces_of_roundsTo (hp : places ≤ 15) (h : Canonical n f)
    (hround : RoundsTo n f (N / 10 ^ places)) (s : Bool) :
    (Binary64.finite s n f h).toPlaces places = .finite s n f h := by
  by_cases hn : n = 0
  · subst hn
    obtain rfl := exponent_of_zero h
    change ofRatio s (unitsAt places 0 1074) (10 ^ places) = _
    rw [unitsAt_zero]
    rfl
  · rcases f with k | k
    · rfl
    · apply ofRatio_eq h hn (by positivity)
      push_cast
      rcases lt_or_ge (10 ^ places) (2 ^ (k + 1)) with hdense | hsparse
      · rw [units_of_dense hdense hround]
        exact hround
      · exact units_round_of_sparse hn hp hsparse

theorem decimalValue_of_roundsTo (hp : places ≤ 15) (h : Canonical n f)
    (hround : RoundsTo n f (N / 10 ^ places)) (s : Bool) :
    ∃ r, decimalValue? (Binary64.finite s n f h).pathText = some r ∧
      (∃ j : ℤ, r = j / 10 ^ places) ∧
      (HasDigits 15 (N / 10 ^ places) → r = withSign s (N / 10 ^ places)) := by
  by_cases hn : n = 0
  · subst hn
    obtain rfl := units_eq_zero hp h hround
    exact ⟨0, decimalValue_zero s h, ⟨0, by simp⟩, fun _ => by simp [withSign_zero]⟩
  · have hfull := full_of_rounds h hround (places_large hp (units_ne_zero hn hround))
    have hunit : (10 : ℚ) ^ (-(places : ℤ)) = (10 ^ places)⁻¹ := by rw [zpow_neg, zpow_natCast]
    have hgrid : RoundsTo n f (N * 10 ^ (-(places : ℤ))) := by
      rwa [hunit, ← div_eq_mul_inv]
    obtain ⟨j, hj⟩ := Decimal.shortest_on_grid h hfull hgrid
    refine ⟨_, decimalValue_finite s h hn, ⟨signed s j, ?_⟩, ?_⟩
    · rw [hj, ← signed_cast_mul, hunit, div_eq_mul_inv]
    · rintro ⟨d, u, hd, hdu⟩
      have hpos : (0 : ℚ) < d * 10 ^ u := hdu ▸ hround.pos hn
      have hd₀ : (0 : ℚ) < d := (mul_pos_iff_of_pos_right (ten_zpow_pos u)).mp hpos
      obtain ⟨d, rfl⟩ := Int.eq_ofNat_of_zero_le (by exact_mod_cast hd₀.le : 0 ≤ d)
      rw [Int.cast_natCast] at hdu
      rw [hdu] at hround ⊢
      rw [Decimal.shortest_eq_of_digits h hfull (by exact_mod_cast hd) hround]

end Binary64

theorem HasDigits.of_withSign {k : ℕ} {s : Bool} {r : ℚ} (h : HasDigits k (Binary64.withSign s r)) :
    HasDigits k r := by
  cases s
  · exact h
  · obtain ⟨d, u, hd, hdu⟩ := h
    exact ⟨-d, u, by rwa [abs_neg], by rw [← neg_neg r, Int.cast_neg, neg_mul, ← hdu]; rfl⟩

theorem IsNearestInteger.withSign {q : ℚ} {n : ℕ} (h : IsNearestInteger q n) (s : Bool) :
    IsNearestInteger (Binary64.withSign s q) (Binary64.signed s n) := by
  cases s
  · exact h
  · exact h.neg

/-- The decimal of a number to some places, with the sign of the number. -/
theorem Binary64.units_of_exact {places m N : ℕ} {e : ℤ} {s : Bool} {q : ℚ} {h : Canonical m e}
    (hq : (Binary64.finite s m e h).exact = .rational q)
    (hnear : IsNearestInteger (m * 2 ^ e * 10 ^ places) (N : ℕ)) {i : ℤ}
    (hi : IsNearestInteger (q * 10 ^ places) i) :
    (i : ℚ) / 10 ^ places = withSign s (N / 10 ^ places) := by
  have hscaled : q * 10 ^ places = withSign s (m * 2 ^ e * 10 ^ places) := by
    rw [← Extended.rational.inj hq, mul_assoc, signed_cast_mul, mul_assoc]
  rw [hscaled] at hi
  rw [hi.unique (hnear.withSign s), div_eq_mul_inv, signed_cast_mul, ← div_eq_mul_inv]

/-- A number to some places is the one nearest to its decimal. -/
theorem Binary64.toPlaces_nearest (places : ℕ) {x : Binary64} {q : ℚ} (hx : x.exact = .rational q)
    {i : ℤ} (hi : IsNearestInteger (q * 10 ^ places) i) :
    IsNearestTo (i / 10 ^ places) (x.toPlaces places) := by
  rcases x with _ | s | ⟨s, m, e, h⟩
  · cases hx
  · cases hx
  obtain ⟨N, n, f, h', hplaces, hnear, hround⟩ := toPlaces_finite places s h
  rw [units_of_exact hx hnear hi, hplaces]
  exact isNearestTo_of_roundsTo h' (by positivity) hround s

theorem WritingSettings.number_of_finite (places : Fin 16) (policy : Policy) {x : Binary64}
    (hx : x.isFinite = true) :
    number ⟨some places, policy⟩ (.float x) = .ok (x.toPlaces places.val).pathText :=
  number_of_hasText (n := .float x) (allow_finite _ ⟨.float x, rfl, trivial, hx⟩) rfl trivial

/-- A number is written to some places as a multiple of a unit of the places, in the same way after
another rounding, and as the rounded decimal where fifteen digits hold it. -/
theorem precision_bounds_decimals (places : Fin 16) (policy : Policy) {x : Binary64} {q : ℚ}
    (hx : x.exact = .rational q) :
    ∃ text r, WritingSettings.number ⟨some places, policy⟩ (.float x) = .ok text ∧
      decimalValue? text = some r ∧
      (∃ n : ℤ, r = n / 10 ^ places.val) ∧
      WritingSettings.number ⟨some places, policy⟩ (.float (x.toPlaces places.val)) = .ok text ∧
      ∀ n : ℤ, IsNearestInteger (q * 10 ^ places.val) n → HasDigits 15 (n / 10 ^ places.val) →
        r = n / 10 ^ places.val := by
  have hfinite : x.isFinite = true := Number.isFinite_of_exact (n := .float x) hx
  have hp : places.val ≤ 15 := by omega
  rcases x with _ | s | ⟨s, m, e, h⟩
  · cases hfinite
  · cases hfinite
  obtain ⟨N, n, f, h', hplaces, hnear, hround⟩ := Binary64.toPlaces_finite places.val s h
  obtain ⟨r, hr, hmultiple, hkept⟩ := Binary64.decimalValue_of_roundsTo hp h' hround s
  have hagain := Binary64.toPlaces_of_roundsTo hp h' hround s
  refine ⟨_, r, WritingSettings.number_of_finite places policy hfinite, ?_, hmultiple, ?_, ?_⟩
  · rwa [hplaces]
  · rw [hplaces, WritingSettings.number_of_finite places policy rfl, hagain]
  · intro i hi hdigits
    rw [Binary64.units_of_exact hx hnear hi] at hdigits ⊢
    exact hkept hdigits.of_withSign

/-- The number `2.125`, in the middle between two decimals of two places. -/
def tied : Binary64 := .finite false 4785074604081152 (-51) (by decide)

theorem tied_to_two_places :
    ∃ text, WritingSettings.number ⟨some 2, .reject⟩ (.float tied) = .ok text ∧
      WritingSettings.number ⟨some 2, .reject⟩ (.float (tied.toPlaces 2)) = .ok text ∧
      decimalValue? text = some (212 / 100) := by
  have hexact : tied.exact = .rational (17 / 8) := by
    norm_num [tied, Binary64.exact, Binary64.signed]
  obtain ⟨text, r, htext, hr, -, hagain, hkept⟩ :=
    precision_bounds_decimals 2 .reject (x := tied) hexact
  have hnear : IsNearestInteger (17 / 8 * 10 ^ (2 : Fin 16).val) 212 := by
    refine ⟨?_, fun _ => by decide⟩
    norm_num [abs_of_pos]
  have hvalue := hkept 212 hnear ⟨212, -2, by norm_num, by norm_num⟩
  refine ⟨text, htext, hagain, ?_⟩
  rw [hr, hvalue]
  norm_num

end VectorPath
