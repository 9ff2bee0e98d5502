import VectorPath.Encoder
import VectorPath.Proofs.Number.Equality
import VectorPath.Proofs.Number.Numeral

/-!
# The numeral that a number is written as

Every finite number is written in path text as a sign and a numeral without superfluous zeros. Read
as an integer when it has neither fraction nor exponent, and as a binary64 number otherwise, the
numeral gives back the value of the number. The whole numbers among the binary64 numbers need an
argument of their own: their text must be exact, not only nearest.
-/

namespace VectorPath

namespace Number

def pathText : Number → String
  | .int i => String.ofList (Layout.integer i)
  | .float x => x.pathText

/-- An integer whose digits fit a text, or a binary64 number. -/
def HasText : Number → Prop
  | .int i => Layout.isTooLong i = false
  | .float _ => True

/-- The number that a numeral with a sign denotes. -/
def ofNumeral (negative : Bool) (x : Numeral) : Number :=
  if x.fraction = [] ∧ x.exponent = 0 then .int (Binary64.signed negative (digitsValue x.whole))
  else .float (x.toBinary64 negative)

end Number

/-- A value that counts as a number that has a text. -/
def Value.HasText (v : Value) : Prop := ∃ n, v.number? = some n ∧ n.HasText

theorem Value.hasText_float (x : Binary64) : (Value.float x).HasText := ⟨.float x, rfl, trivial⟩

theorem Value.hasText_zero : (Value.int 0).HasText := by
  refine ⟨.int 0, rfl, ?_⟩
  change Layout.isTooLong 0 = false
  decide +kernel

theorem numberText_eq {v : Value} {n : Number} (hv : v.number? = some n) (hn : n.HasText) :
    numberText v = .ok n.pathText := by
  unfold numberText
  rw [hv]
  rcases n with i | x
  · have hlong : Layout.isTooLong i = false := hn
    simp only [integerText, hlong, Bool.false_eq_true, if_false]
    rfl
  · rfl

/-- A sign and a plain numeral that denote a number; nothing but zero has only zeros. -/
structure Number.WrittenAs (n : Number) (negative : Bool) (x : Numeral) : Prop where
  text : n.pathText = String.ofList (Layout.minus negative ++ x.text)
  plain : x.IsPlain
  nonzero : negative = true → digitsValue (x.whole ++ x.fraction) ≠ 0
  agrees : n.Agrees (ofNumeral negative x)

section Integers

theorem natural_isPlain (n : ℕ) : (Numeral.mk (Layout.natural n) [] 0).IsPlain := by
  refine ⟨natural_ne_nil n, isDecimalDigit_natural n, ?_, by simp, by simp⟩
  intro h
  by_cases hn : n = 0
  · rw [hn]
    rfl
  · exact absurd h (natural_head hn)

theorem numeral_text_of_whole (cs : List Char) : (Numeral.mk cs [] 0).text = cs := by
  unfold Numeral.text
  change cs ++ ([] ++ []) = cs
  rw [List.append_nil, List.append_nil]

theorem writtenAs_int (i : ℤ) :
    (Number.int i).WrittenAs (i < 0) ⟨Layout.natural i.natAbs, [], 0⟩ := by
  refine ⟨?_, natural_isPlain _, ?_, ?_⟩
  · rw [numeral_text_of_whole]
    rfl
  · intro h
    rw [List.append_nil, digitsValue_natural]
    have := of_decide_eq_true h
    omega
  · have hsigned : Binary64.signed (decide (i < 0)) i.natAbs = i := by
      unfold Binary64.signed
      split_ifs with h
      · have := of_decide_eq_true h
        omega
      · have : ¬ i < 0 := fun hi => h (decide_eq_true hi)
        omega
    have hread : Number.ofNumeral (decide (i < 0)) ⟨Layout.natural i.natAbs, [], 0⟩ = .int i := by
      unfold Number.ofNumeral
      rw [if_pos ⟨rfl, rfl⟩, digitsValue_natural, hsigned]
    rw [hread, Number.agrees_iff]

end Integers

section Floats

variable {m : ℕ} {e : ℤ}

/-- Zero of either sign is written without a sign. -/
theorem writtenAs_zero (s : Bool) (h : Canonical 0 e) :
    (Number.float (.finite s 0 e h)).WrittenAs false ⟨['0'], [], 0⟩ := by
  refine ⟨rfl, natural_isPlain 0, by simp, ?_⟩
  rw [Number.agrees_iff]
  have hread : Number.ofNumeral false ⟨['0'], [], 0⟩ = .int 0 := by decide
  rw [hread]
  simp only [Number.exact, Binary64.exact, (Binary64.signed_eq_zero_iff s 0).mpr rfl]
  simp

theorem pathText_finite (s : Bool) (h : Canonical m e) (hm : m ≠ 0) :
    (Number.float (.finite s m e h)).pathText =
      String.ofList (Layout.minus s ++ (Decimal.shortest m e).numeral.text) := by
  simp only [Number.pathText, Binary64.pathText, hm, if_false, Decimal.numeral_text]

/-- A whole text is the exact value of the number, any other text reads back as the number. -/
theorem writtenAs_finite (s : Bool) (h : Canonical m e) (hm : m ≠ 0) :
    (Number.float (.finite s m e h)).WrittenAs s (Decimal.shortest m e).numeral := by
  have hround := Decimal.shortest_rounds h hm
  have hvalue := Decimal.numeral_toRat (Decimal.shortest m e)
  refine ⟨pathText_finite s h hm, Decimal.numeral_isPlain (Decimal.shortest_last h hm), ?_, ?_⟩
  · intro _
    exact digits_ne_zero_of_rounds hm (hvalue ▸ hround)
  · unfold Number.ofNumeral
    split_ifs with hwhole
    · obtain ⟨hfraction, hexponent⟩ := hwhole
      obtain ⟨hexp, hlt⟩ := Decimal.numeral_whole hfraction hexponent
      have hexact := Decimal.shortest_exact h hm hexp hlt
      have hdigits : (digitsValue (Decimal.shortest m e).numeral.whole : ℚ) = m * 2 ^ e := by
        rw [← hexact, ← hvalue]
        unfold Decimal.toRat Numeral.toDecimal
        simp [hfraction, hexponent]
      rw [Number.agrees_iff]
      simp only [Number.exact, Binary64.exact, Binary64.signed_cast, hdigits]
      split_ifs <;> ring_nf
    · have hread : (Decimal.shortest m e).numeral.toBinary64 s = .finite s m e h :=
        ofDecimal_eq (x := (Decimal.shortest m e).numeral.toDecimal) h hm (hvalue ▸ hround) s
      rw [hread, Number.agrees_iff]

end Floats

theorem exists_writtenAs {n : Number} (hn : n.isFinite = true) :
    ∃ negative x, n.WrittenAs negative x := by
  rcases n with i | x
  · exact ⟨_, _, writtenAs_int i⟩
  · rcases x with _ | s | ⟨s, m, e, h⟩
    · simp [Number.isFinite, Binary64.isFinite] at hn
    · simp [Number.isFinite, Binary64.isFinite] at hn
    · by_cases hm : m = 0
      · subst hm
        exact ⟨_, _, writtenAs_zero s h⟩
      · exact ⟨_, _, writtenAs_finite s h hm⟩

end VectorPath
