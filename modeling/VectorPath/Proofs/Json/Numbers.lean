import VectorPath.Json.Reader
import VectorPath.Proofs.Number.Written
import VectorPath.Value.Display

/-!
# Numbers in JSON

An integer stands in JSON with its digits and a finite binary64 number in its display form, which
always has a fraction or an exponent; the other numbers are words. The reader takes such a text for
the number that it was made from: an integer stays one, and zero keeps its sign.
-/

namespace VectorPath

namespace Numeral

/-- At least one digit, and no superfluous zero in front. -/
structure IsLiteral (x : Numeral) : Prop where
  whole_ne : x.whole ≠ []
  whole_digits : ∀ c ∈ x.whole, isDecimalDigit c = true
  whole_head : x.whole.head? = some '0' → x.whole = ['0']
  fraction_digits : ∀ c ∈ x.fraction, isDecimalDigit c = true

theorem IsPlain.isLiteral {x : Numeral} (h : x.IsPlain) : x.IsLiteral :=
  ⟨h.whole_ne, h.whole_digits, h.whole_head, h.fraction_digits⟩

/-- The numeral of the display form, in which a whole number has a zero behind the point. -/
def pointed (x : Numeral) : Numeral := if x.isInteger then ⟨x.whole, ['0'], 0⟩ else x

theorem isInteger_eq_true {x : Numeral} :
    x.isInteger = true ↔ x.fraction = [] ∧ x.exponent = 0 := by
  simp [isInteger]

theorem isInteger_pointed (x : Numeral) : x.pointed.isInteger = false := by
  unfold pointed
  split_ifs with h
  · rfl
  · simpa using h

theorem pointed_text (x : Numeral) : x.pointed.text = x.text ++ x.ending ".0" := by
  obtain ⟨whole, fraction, exponent⟩ := x
  unfold pointed ending
  split_ifs with h
  · obtain ⟨rfl, rfl⟩ := isInteger_eq_true.mp h
    simp [text, fractionText, exponentPart]
  · rw [List.append_nil]

theorem IsLiteral.pointed {x : Numeral} (h : x.IsLiteral) : x.pointed.IsLiteral := by
  unfold Numeral.pointed
  split_ifs
  · exact ⟨h.whole_ne, h.whole_digits, h.whole_head, by simp [isDecimalDigit_zero]⟩
  · exact h

theorem toRat_pointed (x : Numeral) : x.pointed.toDecimal.toRat = x.toDecimal.toRat := by
  obtain ⟨whole, fraction, exponent⟩ := x
  unfold pointed
  split_ifs with h
  · obtain ⟨rfl, rfl⟩ := isInteger_eq_true.mp h
    have hzero : digitsValue ['0'] = 0 := by decide
    simp [toDecimal, Decimal.toRat, digitsValue_append, hzero]
    ring
  · rfl

end Numeral

namespace Binary64

/-- A sign and a numeral with a fraction or an exponent that make up the display form of a number
and denote it. -/
structure DisplayedAs (y : Binary64) (negative : Bool) (x : Numeral) : Prop where
  text : y.display.toList = Layout.minus negative ++ x.text
  literal : x.IsLiteral
  pointed : x.isInteger = false
  value : x.toBinary64 negative = y

variable {m : ℕ} {e : ℤ}

theorem displayedAs_zero (s : Bool) (h : Canonical 0 e) :
    (finite s 0 e h).DisplayedAs s ⟨['0'], ['0'], 0⟩ := by
  obtain rfl : e = -1074 := h.2.2.2.resolve_left (by decide)
  refine ⟨?_, (natural_isPlain 0).isLiteral.pointed, rfl, rfl⟩
  simp [display, Layout.display, Numeral.text, Numeral.fractionText, Numeral.exponentPart]

theorem displayedAs_finite (s : Bool) (h : Canonical m e) (hm : m ≠ 0) :
    (finite s m e h).DisplayedAs s (Decimal.shortest m e).numeral.pointed := by
  refine ⟨?_, (Decimal.numeral_isPlain (Decimal.shortest_last h hm)).isLiteral.pointed,
    Numeral.isInteger_pointed _, ?_⟩
  · have htext : Layout.display.decimal (Decimal.shortest m e) = _ := Decimal.decimal_text ".0" _
    rw [Numeral.pointed_text, ← htext]
    simp [display, hm]
  · have hround := Decimal.shortest_rounds h hm
    rw [← Decimal.numeral_toRat, ← Numeral.toRat_pointed] at hround
    exact ofDecimal_eq h hm hround s

theorem exists_displayedAs {y : Binary64} (hy : y.isFinite = true) :
    ∃ negative x, y.DisplayedAs negative x := by
  cases y with
  | finite s m e h =>
      by_cases hm : m = 0
      · subst hm
        exact ⟨_, _, displayedAs_zero s h⟩
      · exact ⟨_, _, displayedAs_finite s h hm⟩
  | _ => cases hy

end Binary64

def Number.jsonText : Number → List Char
  | .float .nan => "NaN".toList
  | .float (.infinity s) => Layout.minus s ++ "Infinity".toList
  | n => n.display.toList

namespace Json

/-- Nothing goes on with a number. -/
def EndsNumber (rest : List Char) : Prop :=
  ∀ c, rest.head? = some c → isDecimalDigit c = false ∧ c ≠ '.' ∧ c ≠ 'e' ∧ c ≠ 'E'

section Numerals

variable {x : Numeral} {rest : List Char}

theorem wholeDigits_append (hx : x.IsLiteral)
    (hrest : ∀ c, rest.head? = some c → isDecimalDigit c = false) :
    wholeDigits (x.whole ++ rest) = x.whole := by
  have htake := (Numeral.takeWhile_digits_append hx.whole_digits hrest).1
  rcases hwhole : x.whole with _ | ⟨d, ds⟩
  · exact absurd hwhole hx.whole_ne
  · by_cases hd : d = '0'
    · subst hd
      have hzero := hx.whole_head (by rw [hwhole]; rfl)
      rw [hwhole] at hzero
      rw [hzero]
      rfl
    · rw [hwhole] at htake
      unfold wholeDigits
      split
      next h => simp_all
      next => exact htake

theorem fractionDigits_append (hx : x.IsLiteral)
    (hdigit : ∀ c, rest.head? = some c → isDecimalDigit c = false)
    (hpoint : ∀ c, rest.head? = some c → c ≠ '.') :
    fractionDigits (Numeral.fractionText x.fraction ++ rest) = x.fraction := by
  rcases hfraction : x.fraction with _ | ⟨d, ds⟩
  · rcases rest with _ | ⟨c, rest⟩
    · rfl
    · have hc := hpoint c rfl
      simp only [Numeral.fractionText, List.nil_append]
      unfold fractionDigits
      split
      next h => simp_all
      next => rfl
  · have htake := (Numeral.takeWhile_digits_append hx.fraction_digits hdigit).1
    rw [hfraction] at htake
    exact htake

theorem length_fractionText (cs : List Char) :
    (Numeral.fractionText cs).length = if cs.isEmpty then 0 else cs.length + 1 := by
  cases cs <;> simp [Numeral.fractionText]

theorem head?_exponentPart_append (hrest : EndsNumber rest) (e : ℤ) :
    ∀ c, (Numeral.exponentPart e ++ rest).head? = some c →
      isDecimalDigit c = false ∧ c ≠ '.' := by
  intro c h
  unfold Numeral.exponentPart at h
  split_ifs at h
  · exact ⟨(hrest c h).1, (hrest c h).2.1⟩
  · obtain rfl : 'e' = c := Option.some.inj h
    decide

theorem head?_fractionText_append (cs : List Char)
    (hrest : ∀ c, rest.head? = some c → isDecimalDigit c = false) :
    ∀ c, (Numeral.fractionText cs ++ rest).head? = some c → isDecimalDigit c = false := by
  intro c h
  rcases cs with _ | ⟨d, ds⟩
  · exact hrest c h
  · obtain rfl : '.' = c := Option.some.inj h
    decide

theorem scanExponent_exponentPart (hrest : EndsNumber rest) (e : ℤ) :
    Numeral.scanExponent (Numeral.exponentPart e ++ rest) =
      if e = 0 then none else some (e, (Numeral.exponentPart e).length) := by
  unfold Numeral.exponentPart
  split_ifs with he
  · rcases rest with _ | ⟨c, rest⟩
    · rfl
    · obtain ⟨-, -, hlower, hupper⟩ := hrest c rfl
      simp [Numeral.scanExponent, hlower, hupper]
  · exact Numeral.scanExponent_append e fun c hc => (hrest c hc).1

theorem head?_text_append (hx : x.IsLiteral) (rest : List Char) :
    ∃ d, (x.text ++ rest).head? = some d ∧ isDecimalDigit d = true := by
  rcases hwhole : x.whole with _ | ⟨d, ds⟩
  · exact absurd hwhole hx.whole_ne
  · refine ⟨d, ?_, hx.whole_digits d (hwhole ▸ List.mem_cons_self ..)⟩
    simp [Numeral.text, hwhole]

theorem ne_minus_of_isDecimalDigit {d : Char} (hd : isDecimalDigit d = true) : d ≠ '-' := by
  rintro rfl
  revert hd
  decide

/-- A number ends where its text does. -/
theorem scanNumber_text (hx : x.IsLiteral) (hrest : EndsNumber rest) (negative : Bool)
    (position : ℕ) :
    ∃ next, scanNumber ⟨position, Layout.minus negative ++ (x.text ++ rest)⟩ =
      (numberOf negative x.whole x.fraction x.exponent x.isInteger).map fun n =>
        (n, ⟨next, rest⟩) := by
  obtain ⟨d, hd, hdigit⟩ := head?_text_append hx rest
  have hminus : ((Layout.minus negative ++ (x.text ++ rest)).head? == some '-') = negative := by
    cases negative with
    | true => rfl
    | false => simp [Layout.minus, hd, ne_minus_of_isDecimalDigit hdigit]
  have hsigned : (Layout.minus negative).length = if negative then 1 else 0 := by
    cases negative <;> rfl
  have htext : x.text ++ rest = x.whole ++ (Numeral.fractionText x.fraction ++
      (Numeral.exponentPart x.exponent ++ rest)) := by
    simp [Numeral.text]
  have hend := head?_exponentPart_append hrest x.exponent
  have hdigit := fun c hc => (hend c hc).1
  have hwhole := wholeDigits_append hx (head?_fractionText_append x.fraction hdigit)
  have hfraction := fractionDigits_append hx hdigit fun c hc => (hend c hc).2
  have hne : x.whole.isEmpty = false := by simpa using hx.whole_ne
  unfold scanNumber
  simp only [hminus]
  generalize (if negative = true then 1 else 0) = signed at hsigned ⊢
  -- The parts are read one behind the other.
  simp only [htext, ← List.drop_drop, List.drop_left' hsigned, hwhole, hne, List.drop_left,
    hfraction, ← length_fractionText, scanExponent_exponentPart hrest]
  rw [if_neg Bool.false_ne_true]
  by_cases he : x.exponent = 0
  · have hinteger : x.isInteger = x.fraction.isEmpty := by simp [Numeral.isInteger, he]
    have hpart : Numeral.exponentPart x.exponent = [] := if_pos he
    rw [if_pos he, hinteger, hpart, he]
    refine ⟨position + (signed + x.whole.length + (Numeral.fractionText x.fraction).length), ?_⟩
    cases numberOf negative x.whole x.fraction 0 x.fraction.isEmpty <;> rfl
  · have hinteger : x.isInteger = false := by simp [Numeral.isInteger, he]
    rw [if_neg he, hinteger]
    simp only [List.drop_left]
    exact ⟨_, rfl⟩

end Numerals

section Numbers

variable {rest : List Char}

theorem scanNumber_int (hrest : EndsNumber rest) {i : ℤ} (hi : (Number.int i).HasText)
    (position : ℕ) :
    ∃ next, scanNumber ⟨position, Layout.integer i ++ rest⟩ = .ok (.int i, ⟨next, rest⟩) := by
  obtain ⟨next, hnext⟩ :=
    scanNumber_text (natural_isPlain i.natAbs).isLiteral hrest (i < 0) position
  rw [numeral_text_of_whole, ← List.append_assoc] at hnext
  refine ⟨next, hnext.trans ?_⟩
  have hlength : (Layout.natural i.natAbs).length ≤ Layout.digitLimit :=
    (Nat.length_toDigits_le_iff (by norm_num) (by decide)).mpr
      (not_le.mp (of_decide_eq_false hi))
  have hsign : (if i < 0 then -(i.natAbs : ℤ) else i.natAbs) = i := by
    split_ifs <;> omega
  have hnumber : numberOf (i < 0) (Layout.natural i.natAbs) [] 0 true = .ok (.int i) := by
    unfold numberOf
    rw [if_pos rfl, if_neg (not_lt.mpr hlength), digitsValue_natural]
    simp only [decide_eq_true_eq, hsign]
  change (numberOf (i < 0) (Layout.natural i.natAbs) [] 0 true).map _ = _
  rw [hnumber]
  rfl

theorem scanNumber_displayed (hrest : EndsNumber rest) {y : Binary64} {negative : Bool}
    {x : Numeral} (hy : y.DisplayedAs negative x) (position : ℕ) :
    ∃ next, scanNumber ⟨position, y.display.toList ++ rest⟩ = .ok (.float y, ⟨next, rest⟩) := by
  obtain ⟨next, hnext⟩ := scanNumber_text hy.literal hrest negative position
  rw [← List.append_assoc, ← hy.text, hy.pointed] at hnext
  refine ⟨next, hnext.trans ?_⟩
  change Except.ok (Number.float (x.toBinary64 negative), _) = _
  rw [hy.value]

end Numbers

end Json

end VectorPath
