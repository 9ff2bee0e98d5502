import VectorPath.Proofs.Number.Written
import VectorPath.Proofs.Path.Tokens

/-!
# The grammar of path text

Whatever the settings, a path of integers and finite numbers is written, and its text is in the
path-data grammar. Rounding does not lead out of the finite numbers, and a number is written the
same way whether it has been rounded or not, so the grammar of a number needs no case for the
precision: no superfluous zeros, no point without digits behind it and no negative zero.
-/

namespace VectorPath

section Grammar

/-- Digits, of which the first is zero only when it stands alone. -/
structure WholeText (cs : List Char) : Prop where
  nonempty : cs ≠ []
  digits : ∀ c ∈ cs, isDecimalDigit c = true
  leading : cs.head? = some '0' → cs = ['0']

/-- Nothing, or a point and digits of which the last is not zero. -/
inductive FractionText : List Char → Prop
  | none : FractionText []
  | point {cs : List Char} : cs ≠ [] → (∀ c ∈ cs, isDecimalDigit c = true) →
      cs.getLast? ≠ some '0' → FractionText ('.' :: cs)

inductive ExponentText : List Char → Prop
  | none : ExponentText []
  | signed {sign : Char} {cs : List Char} : sign = '+' ∨ sign = '-' → cs ≠ [] →
      (∀ c ∈ cs, isDecimalDigit c = true) → ExponentText ('e' :: sign :: cs)

structure NumberText (t : List Char) : Prop where
  parts : ∃ negative whole fraction exponent,
    t = Layout.minus negative ++ (whole ++ (fraction ++ exponent)) ∧
      WholeText whole ∧ FractionText fraction ∧ ExponentText exponent
  unsigned_zero : t ≠ ['-', '0']

end Grammar

section Numerals

variable {x : Numeral}

theorem wholeText_of_isPlain (h : x.IsPlain) : WholeText x.whole :=
  ⟨h.whole_ne, h.whole_digits, h.whole_head⟩

theorem fractionText_of_isPlain (h : x.IsPlain) :
    FractionText (Numeral.fractionText x.fraction) := by
  rcases hf : x.fraction with _ | ⟨c, cs⟩
  · exact .none
  · have hdigits := h.fraction_digits
    have hlast := h.fraction_last
    rw [hf] at hdigits hlast
    exact .point (List.cons_ne_nil c cs) hdigits hlast

theorem exponentText_exponentPart (e : ℤ) : ExponentText (Numeral.exponentPart e) := by
  unfold Numeral.exponentPart
  split_ifs with he
  · exact .none
  · refine .signed ?_ (Numeral.exponentDigits_ne_nil e.natAbs)
      (Numeral.isDecimalDigit_exponentDigits e.natAbs)
    split_ifs
    · exact Or.inr rfl
    · exact Or.inl rfl

theorem exists_digit_text (h : x.IsPlain) :
    ∃ c t, x.text = c :: t ∧ isDecimalDigit c = true := by
  obtain ⟨c, cs, hc⟩ := List.exists_cons_of_ne_nil h.whole_ne
  refine ⟨c, cs ++ (Numeral.fractionText x.fraction ++ Numeral.exponentPart x.exponent), ?_, ?_⟩
  · unfold Numeral.text
    rw [hc]
    rfl
  · exact h.whole_digits c (hc ▸ List.mem_cons_self ..)

/-- A numeral with a digit other than zero is not written as zero. -/
theorem text_ne_zero (h : x.IsPlain) (hx : digitsValue (x.whole ++ x.fraction) ≠ 0) :
    x.text ≠ ['0'] := by
  intro hzero
  obtain ⟨c, cs, hc⟩ := List.exists_cons_of_ne_nil h.whole_ne
  unfold Numeral.text at hzero
  rw [hc, List.cons_append] at hzero
  obtain ⟨hc₀, hrest⟩ := List.cons.inj hzero
  obtain ⟨hcs, hrest⟩ := List.append_eq_nil_iff.mp hrest
  obtain ⟨hfraction, -⟩ := List.append_eq_nil_iff.mp hrest
  apply hx
  rcases hf : x.fraction with _ | ⟨d, ds⟩
  · rw [hc, hc₀, hcs]
    rfl
  · rw [hf] at hfraction
    exact absurd hfraction (List.cons_ne_nil _ _)

theorem Number.WrittenAs.numberText {n : Number} {s : Bool} (h : n.WrittenAs s x) :
    NumberText n.pathText.toList := by
  rw [h.text, String.toList_ofList]
  refine ⟨⟨s, x.whole, _, _, rfl, wholeText_of_isPlain h.plain, fractionText_of_isPlain h.plain,
    exponentText_exponentPart x.exponent⟩, ?_⟩
  intro hzero
  -- Without a sign the text begins with a digit; with one it has a digit other than zero.
  rcases s with _ | _
  · obtain ⟨c, t, htext, hc⟩ := exists_digit_text h.plain
    rw [htext] at hzero
    obtain rfl : c = '-' := (List.cons.inj hzero).1
    exact absurd hc (by decide)
  · exact text_ne_zero h.plain (h.nonzero rfl) (List.cons.inj hzero).2

end Numerals

/-- A value that counts as an integer that has a text or as a finite number. -/
def Value.HasFiniteText (v : Value) : Prop :=
  ∃ n, v.number? = some n ∧ n.HasText ∧ n.isFinite = true

theorem Value.HasFiniteText.cases {v : Value} (h : v.HasFiniteText) :
    (∃ i, v = .int i) ∨ (∃ b, v = .bool b) ∨ ∃ x, v = .float x ∧ x.isFinite = true := by
  obtain ⟨n, hv, -, hn⟩ := h
  cases v with
  | number m =>
      cases m with
      | int i => exact .inl ⟨i, rfl⟩
      | float x =>
          obtain rfl : Number.float x = n := Option.some.inj hv
          exact .inr (.inr ⟨x, rfl, hn⟩)
  | bool b => exact .inr (.inl ⟨b, rfl⟩)
  | _ => simp [Value.number?] at hv

namespace WritingSettings

variable (s : WritingSettings)

theorem allow_finite {v : Value} (h : v.HasFiniteText) : s.allow v = .ok () := by
  obtain ⟨precision, policy⟩ := s
  obtain ⟨i, rfl⟩ | ⟨b, rfl⟩ | ⟨x, rfl, hx⟩ := h.cases
  · cases policy <;> rfl
  · cases policy <;> rfl
  · cases policy
    · rfl
    · exact if_pos hx

/-- Rounding keeps to the finite numbers that have a text. -/
theorem round_finite {v : Value} (h : v.HasFiniteText) :
    ∃ w, s.round v = .ok w ∧ w.HasFiniteText := by
  obtain ⟨_ | places, policy⟩ := s
  · exact ⟨v, rfl, h⟩
  obtain ⟨i, rfl⟩ | ⟨b, rfl⟩ | ⟨x, rfl, hx⟩ := h.cases
  · exact ⟨_, rfl, h⟩
  · exact ⟨_, rfl, h⟩
  · exact ⟨_, rfl, _, rfl, trivial, Binary64.toPlaces_isFinite places.val hx⟩

/-- What stands for a number: its text under the settings, in the grammar of numbers. -/
def NumberToken (v : Value) (t : List Char) : Prop :=
  s.number v = .ok (String.ofList t) ∧ NumberText t

theorem writes_finite {v : Value} (h : v.HasFiniteText) : s.Writes s.NumberToken v := by
  obtain ⟨w, hround, n, hw, htext, hn⟩ := s.round_finite h
  obtain ⟨negative, x, hwritten⟩ := exists_writtenAs hn
  have hnumber : s.number v = .ok n.pathText := by
    unfold number
    rw [s.allow_finite h, hround]
    exact numberText_eq hw htext
  refine ⟨n.pathText, hnumber, ?_, hwritten.numberText⟩
  rw [String.ofList_toList, hnumber]

end WritingSettings

/-- Every number field and coordinate is an integer that has a text or a finite number. -/
def Command.HasFiniteTexts (c : Command) : Prop := ∀ v ∈ c.numbers, v.HasFiniteText

/-- A path of integers and finite numbers is written under all settings: one token for every
command in order, its letter with the fields right behind it, and every number in the grammar. -/
theorem path_text_in_grammar (s : WritingSettings) {cs : List Command}
    (h : ∀ c ∈ cs, c.HasFiniteTexts) :
    ∃ text, s.pathOf (.list (cs.map Command.toValue)) = .ok text ∧
      PathText s.NumberToken cs text.toList := by
  rw [WritingSettings.pathOf_toValue]
  exact WritingSettings.commands_written fun c hc v hv => s.writes_finite (h c hc v hv)

/-- A step by the negative number next to zero. -/
def leastStep : Command :=
  ⟨true, .horizontalLineTo (.float (.finite true 1 (-1074) (by decide)))⟩

/-- A number that rounds to negative zero is in the grammar too. -/
theorem least_step_text_in_grammar :
    ∃ text, WritingSettings.pathOf ⟨some 3, .reject⟩ (.list ([leastStep].map Command.toValue)) =
        .ok text ∧
      PathText (WritingSettings.NumberToken ⟨some 3, .reject⟩) [leastStep] text.toList := by
  apply path_text_in_grammar
  intro c hc v hv
  obtain rfl := List.mem_singleton.mp hc
  obtain rfl := List.mem_singleton.mp hv
  exact ⟨_, rfl, trivial, rfl⟩

end VectorPath
