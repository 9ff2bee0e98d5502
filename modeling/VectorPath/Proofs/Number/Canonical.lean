import VectorPath.Proofs.Number.Grids
import VectorPath.Proofs.Number.Nearest
import VectorPath.Proofs.Number.Written

/-!
# Texts of numbers are faithful and canonical

The text of a number denotes a decimal. For an integer that is the integer, and for a binary64
number a decimal that rounds to it and to no other, so numbers of one text have one value. The other
way round, numbers of one value below `10 ^ 16` have one text, whether they are integers or not: the
shortest decimal of a whole number is the number, and it is laid out as the digits of the number.
-/

namespace VectorPath

/-- A numeral with a sign in front, or without one. -/
def signedNumeral? : List Char → Option (Bool × Numeral)
  | '-' :: rest => (Numeral.ofText? rest).map (true, ·)
  | cs => (Numeral.ofText? cs).map (false, ·)

/-- The rational that a decimal text denotes. -/
def decimalValue? (text : String) : Option ℚ :=
  (signedNumeral? text.toList).map fun x => Binary64.withSign x.1 x.2.toDecimal.toRat

theorem signedNumeral?_text {x : Numeral} (hx : x.IsPlain) (s : Bool) :
    signedNumeral? (Layout.minus s ++ x.text) = some (s, x) := by
  have hread := Numeral.ofText?_text hx
  cases s
  · obtain ⟨c, cs, hc⟩ : ∃ c cs, x.whole = c :: cs := List.exists_cons_of_ne_nil hx.whole_ne
    have hdigit := hx.whole_digits c (by rw [hc]; exact List.mem_cons_self ..)
    have htext : x.text = c :: (cs ++ (Numeral.fractionText x.fraction ++
        Numeral.exponentPart x.exponent)) := by
      unfold Numeral.text
      rw [hc]
      rfl
    change signedNumeral? x.text = _
    unfold signedNumeral?
    split
    · rename_i heq
      rw [htext] at heq
      obtain rfl := (List.cons.inj heq).1
      exact absurd hdigit (by decide)
    · rw [hread]
      rfl
  · change (Numeral.ofText? x.text).map (true, ·) = _
    rw [hread]
    rfl

namespace Number.WrittenAs

variable {a b : Number} {s t : Bool} {x y : Numeral}

theorem signedNumeral (h : a.WrittenAs s x) : signedNumeral? a.pathText.toList = some (s, x) := by
  rw [h.text, String.toList_ofList]
  exact signedNumeral?_text h.plain s

theorem decimalValue (h : a.WrittenAs s x) :
    decimalValue? a.pathText = some (Binary64.withSign s x.toDecimal.toRat) := by
  unfold decimalValue?
  rw [h.signedNumeral]
  rfl

/-- Numbers with one text have one value. -/
theorem exact_eq (h : a.WrittenAs s x) (h' : b.WrittenAs t y) (htext : a.pathText = b.pathText) :
    a.exact = b.exact := by
  have hsame := h.signedNumeral
  rw [htext, h'.signedNumeral, Option.some.injEq, Prod.mk.injEq] at hsame
  obtain ⟨rfl, rfl⟩ := hsame
  exact ((Number.agrees_iff _ _).mp h.agrees).trans ((Number.agrees_iff _ _).mp h'.agrees).symm

end Number.WrittenAs

/-- A rational gives a number back: it is the integer, or the binary64 number is the one nearest to
it, where zero has no sign. -/
def Number.IsGivenBy (r : ℚ) : Number → Prop
  | .int i => r = i
  | .float x => (Binary64.ofRat r).sameValue x = true ∧ x.IsNearestTo r

section Faithful

variable {m : ℕ} {e : ℤ}

theorem Number.isFinite_of_exact {n : Number} {q : ℚ} (h : n.exact = .rational q) :
    n.isFinite = true := by
  rcases n with i | _ | s | _
  · rfl
  · cases h
  · cases h
  · rfl

theorem Binary64.ofRat_zero : ofRat 0 = zero false := rfl

theorem Binary64.isNearestTo_zero (s : Bool) (h : Canonical 0 e) :
    IsNearestTo 0 (.finite s 0 e h) := by
  have hnear := isNearestTo_of_roundsTo h le_rfl (RoundsTo.zero e) s
  rwa [withSign_zero] at hnear

theorem Binary64.sameValue_self (s : Bool) (h : Canonical m e) :
    (Binary64.finite s m e h).sameValue (.finite s m e h) = true := by
  rw [sameValue_iff]
  exact ⟨rfl, nofun⟩

theorem Binary64.decimalValue_zero (s : Bool) (h : Canonical 0 e) :
    decimalValue? (Binary64.finite s 0 e h).pathText = some 0 := by
  refine (writtenAs_zero s h).decimalValue.trans ?_
  simp [withSign, Numeral.toDecimal, Decimal.toRat, digitsValue, digitValue]

theorem Binary64.decimalValue_finite (s : Bool) (h : Canonical m e) (hm : m ≠ 0) :
    decimalValue? (Binary64.finite s m e h).pathText =
      some (withSign s (Decimal.shortest m e).toRat) := by
  rw [← Decimal.numeral_toRat]
  exact (writtenAs_finite s h hm).decimalValue

/-- The decimal of a text gives back the number that was written. -/
theorem exists_decimal {n : Number} (hn : n.isFinite = true) :
    ∃ r, decimalValue? n.pathText = some r ∧ n.IsGivenBy r := by
  rcases n with i | _ | s | ⟨s, m, e, h⟩
  · refine ⟨_, (writtenAs_int i).decimalValue, ?_⟩
    have hvalue : (Numeral.mk (Layout.natural i.natAbs) [] 0).toDecimal.toRat = i.natAbs := by
      unfold Numeral.toDecimal Decimal.toRat
      simp
    rw [hvalue]
    exact Binary64.withSign_natAbs i
  · exact absurd hn (by decide)
  · exact absurd hn (by cases s <;> decide)
  · by_cases hm : m = 0
    · subst hm
      refine ⟨0, Binary64.decimalValue_zero s h, ?_, Binary64.isNearestTo_zero s h⟩
      rw [Binary64.ofRat_zero]
      rfl
    · have hround := Decimal.shortest_rounds h hm
      refine ⟨_, Binary64.decimalValue_finite s h hm, ?_,
        Binary64.isNearestTo_of_roundsTo h (hround.pos hm).le hround s⟩
      rw [Binary64.ofRat_eq h hm hround]
      exact Binary64.sameValue_self s h

end Faithful

theorem natural_mul_ten_pow {n : ℕ} (hn : n ≠ 0) (k : ℕ) :
    Layout.natural (n * 10 ^ k) = Layout.natural n ++ List.replicate k '0' := by
  induction k with
  | zero => simp
  | succ k ih =>
      have hpos : 0 < n * 10 ^ k := by positivity
      have hlast := Nat.toDigits_append_toDigits (b := 10) (d := 0) (by norm_num) hpos (by norm_num)
      unfold Layout.natural at ih ⊢
      rw [pow_succ, ← mul_assoc, mul_comm _ 10, ← Nat.add_zero (10 * (n * 10 ^ k)), ← hlast, ih,
        List.replicate_succ', List.append_assoc]
      rfl

/-- A whole decimal below `10 ^ 16` that does not end in a zero is laid out in full. -/
theorem Decimal.numeral_of_whole {x : Decimal} {N : ℕ} (hx : x.digits % 10 ≠ 0) (hN : x.toRat = N)
    (hlt : N < 10 ^ 16) : x.numeral = ⟨Layout.natural N, [], 0⟩ := by
  obtain ⟨k, hk⟩ : ∃ k : ℕ, x.exponent = k := Int.eq_ofNat_of_zero_le (exponent_nonneg hx hN)
  have hvalue : N = x.digits * 10 ^ k := by
    unfold toRat at hN
    rw [hk, zpow_natCast] at hN
    exact_mod_cast hN.symm
  have hdigits := natural_mul_ten_pow (n := x.digits) (by omega) k
  have hpos := natural_length_pos x.digits
  have hlength : (Layout.natural N).length ≤ 16 :=
    (Nat.length_toDigits_le_iff (by norm_num) (by norm_num)).mpr hlt
  rw [hvalue, hdigits, List.length_append, List.length_replicate] at hlength
  have horder : x.order = k + (Layout.natural x.digits).length - 1 := by rw [order, hk]
  unfold numeral
  rw [if_pos (by omega), if_neg (by omega), if_pos (by omega), hvalue, hdigits]
  congr 2
  congr 1
  omega

section Canonical

variable {m : ℕ} {e : ℤ}

theorem Binary64.of_withSign_eq {s : Bool} {q : ℚ} {i : ℤ} (hq : 0 < q) (h : withSign s q = i) :
    decide (i < 0) = s ∧ q = i.natAbs := by
  rw [Nat.cast_natAbs, Int.cast_abs, ← h]
  cases s
  · have hi : (0 : ℚ) < i := hq.trans_eq h
    exact ⟨decide_eq_false (not_lt.mpr (by exact_mod_cast hi.le)), (abs_of_pos hq).symm⟩
  · have hi : (i : ℚ) < 0 := h.symm.trans_lt (neg_neg_of_pos hq)
    exact ⟨decide_eq_true (by exact_mod_cast hi), ((abs_neg q).trans (abs_of_pos hq)).symm⟩

theorem Binary64.pathText_whole {x : Binary64} {i : ℤ} (hx : x.exact = .rational i)
    (hlt : i.natAbs < 10 ^ 16) : x.pathText = String.ofList (Layout.integer i) := by
  rcases x with _ | s | ⟨s, m, e, h⟩
  · cases hx
  · cases hx
  have hvalue : withSign s (m * 2 ^ e) = i := by
    rw [← signed_cast_mul]
    exact Extended.rational.inj hx
  by_cases hm : m = 0
  · subst hm
    obtain rfl : i = 0 := by
      rw [Nat.cast_zero, zero_mul, withSign_zero] at hvalue
      exact_mod_cast hvalue.symm
    rfl
  · have hpos : (0 : ℚ) < m * 2 ^ e := by
      have := two_zpow_pos e
      positivity
    obtain ⟨hs, hN⟩ := of_withSign_eq hpos hvalue
    have hwhole := Decimal.shortest_whole h hm hN hlt
    have htext := pathText_finite s h hm
    rw [Decimal.numeral_of_whole (Decimal.shortest_last h hm) hwhole hlt,
      numeral_text_of_whole] at htext
    rw [Layout.integer, hs]
    exact htext

theorem Binary64.eq_of_exact {x y : Binary64} {q : ℚ} (hq : q ≠ 0) (hx : x.exact = .rational q)
    (hy : y.exact = .rational q) : x = y := by
  rcases x with _ | s | ⟨s, m, e, h⟩
  · cases hx
  · cases hx
  rcases y with _ | t | ⟨t, n, f, h'⟩
  · cases hy
  · cases hy
  have hvalue := Extended.rational.inj (hx.trans hy.symm)
  apply finite_unique h h' _ hvalue
  rintro rfl
  have hzero := Extended.rational.inj hx
  rw [(signed_eq_zero_iff s 0).mpr rfl, Int.cast_zero, zero_mul] at hzero
  exact hq hzero.symm

/-- Numbers of one value have one text, if their value is below `10 ^ 16`. -/
theorem pathText_congr {a b : Number} {q : ℚ} (ha : a.exact = .rational q)
    (hb : b.exact = .rational q) (hq : |q| < 10 ^ 16) : a.pathText = b.pathText := by
  have hsmall : ∀ i : ℤ, (i : ℚ) = q → i.natAbs < 10 ^ 16 := by
    rintro i rfl
    rw [← Int.cast_abs, ← Nat.cast_natAbs] at hq
    exact_mod_cast hq
  have hint : ∀ (i : ℤ) (x : Binary64), (i : ℚ) = q → x.exact = .rational q →
      (Number.int i).pathText = (Number.float x).pathText := fun i x hi hx =>
    (Binary64.pathText_whole (hi ▸ hx) (hsmall i hi)).symm
  rcases a with i | x <;> rcases b with j | y
  · have hi := Extended.rational.inj ha
    have hj := Extended.rational.inj hb
    have hij : i = j := by exact_mod_cast hi.trans hj.symm
    rw [hij]
  · exact hint i y (Extended.rational.inj ha) hb
  · exact (hint j x (Extended.rational.inj hb) ha).symm
  · by_cases hzero : q = 0
    · have hq₀ : ((0 : ℤ) : ℚ) = q := by rw [hzero, Int.cast_zero]
      exact (hint 0 x hq₀ ha).symm.trans (hint 0 y hq₀ hb)
    · rw [Binary64.eq_of_exact hzero ha hb]

end Canonical

/-- Integers that have a text and finite numbers are written as decimals that give them back, so
that numbers of one text have one value; and numbers of one value have one text below `10 ^ 16`. -/
theorem number_texts_faithful_and_canonical {v w : Value} {a b : Number} {p q : ℚ}
    (hv : v.number? = some a) (hw : w.number? = some b) (ha : a.HasText) (hb : b.HasText)
    (hp : a.exact = .rational p) (hq : b.exact = .rational q) :
    ∃ s t, numberText v = .ok s ∧ numberText w = .ok t ∧
      (∃ r, decimalValue? s = some r ∧ a.IsGivenBy r) ∧
      (s = t → p = q) ∧
      (p = q → |p| < 10 ^ 16 → s = t) := by
  have hfinite : a.isFinite = true := Number.isFinite_of_exact hp
  refine ⟨a.pathText, b.pathText, numberText_eq hv ha, numberText_eq hw hb,
    exists_decimal hfinite, fun htext => ?_, ?_⟩
  · obtain ⟨s, x, hx⟩ := exists_writtenAs hfinite
    obtain ⟨t, y, hy⟩ := exists_writtenAs (Number.isFinite_of_exact hq)
    have hexact := hx.exact_eq hy htext
    rw [hp, hq] at hexact
    exact Extended.rational.inj hexact
  · rintro rfl hlt
    exact pathText_congr hp hq hlt

/-- The number `2 ^ 53 + 2`, which has sixteen digits and needs them all. -/
def largeEven : Binary64 := .finite false 4503599627370497 1 (by decide)

/-- An integer and a binary64 number of sixteen digits have one text, which gives both back. -/
theorem large_even_has_one_text :
    ∃ text r, numberText (.int 9007199254740994) = .ok text ∧
      numberText (.float largeEven) = .ok text ∧ decimalValue? text = some r ∧
      (Number.float largeEven).IsGivenBy r := by
  have htext : (Number.int 9007199254740994).HasText := by
    change Layout.isTooLong 9007199254740994 = false
    decide +kernel
  have hexact : largeEven.exact = .rational 9007199254740994 := by
    norm_num [largeEven, Binary64.exact, Binary64.signed]
  obtain ⟨s, t, hs, ht, ⟨r, hr, hgiven⟩, -, hsame⟩ := number_texts_faithful_and_canonical
    (v := .float largeEven) (w := .int 9007199254740994) rfl rfl trivial htext hexact rfl
  obtain rfl := hsame rfl (by norm_num)
  exact ⟨s, r, ht, hs, hr, hgiven⟩

end VectorPath
