import VectorPath.Proofs.Number.Numeral
import VectorPath.Text.Integer

/-!
# Integers with underscores and a fraction

An integer in settings may have single underscores between its digits and a fraction of zeros. Both
are dropped before its digits are read. So a text has the plain form of an integer once they are
dropped exactly if it is such an integer, and its value is that of the digits. Without a superfluous
zero in front there are no more digits than the number needs, so a number far below the limit of
digits is never too long.
-/

namespace VectorPath.Text

variable {c : Char} {cs rest digits fraction : List Char} {n : ℕ} {i : ℤ}

/-- Decimal digits with single underscores between some of them. -/
inductive Grouped : List Char → Prop
  | single {c : Char} (hc : isDecimalDigit c = true) : Grouped [c]
  | digit {c : Char} {cs : List Char} (hc : isDecimalDigit c = true) (h : Grouped cs) :
      Grouped (c :: cs)
  | underscore {c : Char} {cs : List Char} (hc : isDecimalDigit c = true) (h : Grouped cs) :
      Grouped (c :: '_' :: cs)

def ungrouped (digits : List Char) : List Char := digits.filter (· != '_')

/-- The natural number that grouped digits denote. -/
def groupedValue (digits : List Char) : ℕ := digitsValue (ungrouped digits)

/-- Zeros behind a point, if there is one. -/
inductive ZeroFraction : List Char → Prop
  | none : ZeroFraction []
  | zeros (k : ℕ) : ZeroFraction ('.' :: List.replicate (k + 1) '0')

/-- A natural number without a superfluous zero in front, and its fraction. -/
inductive WholeText : List Char → ℕ → Prop
  | mk {digits fraction : List Char} (hdigits : Grouped digits)
      (hhead : digits.head? = some '0' → digits = ['0']) (hfraction : ZeroFraction fraction) :
      WholeText (digits ++ fraction) (groupedValue digits)

/-- A character that may be left out. -/
def Optional (c : Char) (cs : List Char) : Prop := cs = [] ∨ cs = [c]

/-- The text of an integer without a plus sign and zeros in front. Behind a minus sign there may be
an underscore, since zeros may have stood before the sign. -/
inductive Stripped : List Char → ℤ → Prop
  | natural {cs : List Char} {n : ℕ} (h : WholeText cs n) : Stripped cs n
  | negative {mark cs : List Char} {n : ℕ} (hmark : Optional '_' mark) (h : WholeText cs n) :
      Stripped ('-' :: (mark ++ cs)) (-n)

section Digits

theorem ne_of_isDecimalDigit {d : Char} (h : isDecimalDigit c = true)
    (hd : isDecimalDigit d = false) : c ≠ d := by
  rintro rfl
  rw [h] at hd
  cases hd

theorem ungrouped_cons (h : isDecimalDigit c = true) (rest : List Char) :
    ungrouped (c :: rest) = c :: ungrouped rest :=
  List.filter_cons_of_pos (bne_iff_ne.mpr (ne_of_isDecimalDigit h (by decide)))

theorem ungrouped_underscore (rest : List Char) : ungrouped ('_' :: rest) = ungrouped rest :=
  List.filter_cons_of_neg (by decide)

namespace Grouped

theorem exists_cons (h : Grouped digits) :
    ∃ c rest, isDecimalDigit c = true ∧ digits = c :: rest := by
  cases h with
  | single hc => exact ⟨_, _, hc, rfl⟩
  | digit hc _ => exact ⟨_, _, hc, rfl⟩
  | underscore hc _ => exact ⟨_, _, hc, rfl⟩

theorem mem (h : Grouped digits) (hc : c ∈ digits) : isDecimalDigit c = true ∨ c = '_' := by
  induction h with
  | single hd =>
      obtain rfl := List.mem_singleton.mp hc
      exact .inl hd
  | digit hd _ ih =>
      rcases List.mem_cons.mp hc with rfl | hc
      · exact .inl hd
      · exact ih hc
  | underscore hd _ ih =>
      rcases List.mem_cons.mp hc with rfl | hc
      · exact .inl hd
      · rcases List.mem_cons.mp hc with rfl | hc
        · exact .inr rfl
        · exact ih hc

theorem isDecimalDigit (h : Grouped digits) :
    ∀ c ∈ ungrouped digits, isDecimalDigit c = true := by
  intro c hc
  obtain ⟨hmem, hne⟩ := List.mem_filter.mp hc
  exact (h.mem hmem).resolve_right (bne_iff_ne.mp hne)

theorem head?_ungrouped (h : Grouped digits) : (ungrouped digits).head? = digits.head? := by
  obtain ⟨c, rest, hc, rfl⟩ := h.exists_cons
  rw [ungrouped_cons hc, List.head?_cons, List.head?_cons]

theorem eq_singleton (h : Grouped digits) (hlength : (ungrouped digits).length = 1) :
    ∃ c, digits = [c] := by
  cases h with
  | @single c _ => exact ⟨c, rfl⟩
  | digit hc h =>
      obtain ⟨d, rest, hd, rfl⟩ := h.exists_cons
      rw [ungrouped_cons hc, ungrouped_cons hd] at hlength
      cases hlength
  | underscore hc h =>
      obtain ⟨d, rest, hd, rfl⟩ := h.exists_cons
      rw [ungrouped_cons hc, ungrouped_underscore, ungrouped_cons hd] at hlength
      cases hlength

/-- No more digits can be read from grouped digits than they have. -/
theorem length_takeWhile_le (h : Grouped digits)
    (hrest : ∀ c, rest.head? = some c → VectorPath.isDecimalDigit c = false) :
    ((digits ++ rest).takeWhile VectorPath.isDecimalDigit).length ≤ (ungrouped digits).length := by
  induction h with
  | @single c hc =>
      have hstop : rest.takeWhile VectorPath.isDecimalDigit = [] := by
        cases rest with
        | nil => rfl
        | cons d rest => exact List.takeWhile_cons_of_neg (Bool.eq_false_iff.mp (hrest d rfl))
      rw [List.singleton_append, List.takeWhile_cons_of_pos hc, hstop, ungrouped_cons hc]
      exact Nat.le_add_left _ _
  | digit hc _ ih =>
      rw [List.cons_append, List.takeWhile_cons_of_pos hc, ungrouped_cons hc, List.length_cons,
        List.length_cons]
      exact Nat.succ_le_succ ih
  | underscore hc _ _ =>
      rw [List.cons_append, List.takeWhile_cons_of_pos hc, List.cons_append,
        List.takeWhile_cons_of_neg (by decide), ungrouped_cons hc]
      exact Nat.le_add_left _ _

end Grouped

theorem hasStrayUnderscore_cons (hc : c ≠ '_') (cs : List Char) :
    hasStrayUnderscore (c :: cs) = hasStrayUnderscore cs := by
  rw [hasStrayUnderscore]
  · exact fun h _ => hc h
  · exact fun _ h _ => hc h

theorem hasStrayUnderscore_underscore (hc : c ≠ '_') (cs : List Char) :
    hasStrayUnderscore ('_' :: c :: cs) = hasStrayUnderscore (c :: cs) := by
  rw [hasStrayUnderscore]
  · exact fun _ h => List.cons_ne_nil _ _ h
  · exact fun _ _ h => hc (List.cons.inj h).1

theorem Grouped.hasStrayUnderscore (h : Grouped digits) : hasStrayUnderscore digits = false := by
  induction h with
  | single hc => rw [hasStrayUnderscore_cons (ne_of_isDecimalDigit hc (by decide))]; rfl
  | digit hc _ ih => rw [hasStrayUnderscore_cons (ne_of_isDecimalDigit hc (by decide)), ih]
  | underscore hc h ih =>
      obtain ⟨d, rest, hd, rfl⟩ := h.exists_cons
      rw [hasStrayUnderscore_cons (ne_of_isDecimalDigit hc (by decide)),
        hasStrayUnderscore_underscore (ne_of_isDecimalDigit hd (by decide)), ih]

/-- Where no underscore is stray, grouped digits remain, with an underscore in front at most. -/
theorem grouped_of_ungrouped (hstray : hasStrayUnderscore cs = false)
    (hdigits : ∀ c ∈ ungrouped cs, isDecimalDigit c = true) :
    cs = [] ∨ ∃ mark digits, Optional '_' mark ∧ Grouped digits ∧ cs = mark ++ digits := by
  induction cs with
  | nil => exact .inl rfl
  | cons c rest ih =>
      right
      by_cases hc : c = '_'
      · subst hc
        rw [ungrouped_underscore] at hdigits
        match rest with
        | [] => cases hstray
        | d :: more =>
            have hd : d ≠ '_' := by
              rintro rfl
              cases hstray
            rw [hasStrayUnderscore_underscore hd] at hstray
            obtain ⟨_, digits, rfl | rfl, hgrouped, heq⟩ :=
              (ih hstray hdigits).resolve_left (List.cons_ne_nil d more)
            · exact ⟨['_'], digits, .inr rfl, hgrouped, congrArg ('_' :: ·) heq⟩
            · exact absurd (List.cons.inj heq).1 hd
      · rw [hasStrayUnderscore_cons hc] at hstray
        have hdigit : isDecimalDigit c = true :=
          hdigits c (List.mem_filter.mpr ⟨List.mem_cons_self, bne_iff_ne.mpr hc⟩)
        rw [ungrouped_cons hdigit] at hdigits
        obtain hrest | ⟨_, digits, rfl | rfl, hgrouped, hrest⟩ :=
          ih hstray fun d hd => hdigits d (List.mem_cons_of_mem c hd)
        · exact ⟨[], [c], .inl rfl, .single hdigit, congrArg (c :: ·) hrest⟩
        · exact ⟨[], c :: digits, .inl rfl, .digit hdigit hgrouped, congrArg (c :: ·) hrest⟩
        · exact ⟨[], c :: '_' :: digits, .inl rfl, .underscore hdigit hgrouped,
            congrArg (c :: ·) hrest⟩

end Digits

section Plain

theorem dropFraction_append (hcs : '.' ∉ cs) (h : ZeroFraction fraction) :
    dropFraction (cs ++ fraction) = cs := by
  have hplain : ∀ c ∈ cs, (c != '.') = true := by
    intro c hc
    rw [bne_iff_ne]
    rintro rfl
    exact hcs hc
  unfold dropFraction
  rw [List.dropWhile_append_of_pos hplain, List.takeWhile_append_of_pos hplain]
  cases h with
  | none => simp
  | zeros k => simp [List.replicate_succ]

theorem exists_dropFraction (cs : List Char) :
    ∃ fraction, ZeroFraction fraction ∧ cs = dropFraction cs ++ fraction := by
  unfold dropFraction
  split
  next point c rest hdrop =>
    split_ifs with hzeros
    · have hpoint : point = '.' := by
        have hhead := List.head?_dropWhile_not (· != '.') cs
        rw [hdrop] at hhead
        simpa using hhead
      have hreplicate : c :: rest = List.replicate (rest.length + 1) '0' :=
        List.eq_replicate_of_mem fun d hd => eq_of_beq (List.all_eq_true.mp hzeros d hd)
      refine ⟨_, .zeros rest.length, ?_⟩
      rw [← hreplicate]
      subst hpoint
      rw [← hdrop, List.takeWhile_append_dropWhile]
    · exact ⟨[], .none, (List.append_nil cs).symm⟩
  next => exact ⟨[], .none, (List.append_nil cs).symm⟩

theorem dropUnderscores_eq (hhead : cs.head? ≠ some '_') (hstray : hasStrayUnderscore cs = false) :
    dropUnderscores cs = ungrouped cs := by
  unfold dropUnderscores ungrouped
  rw [hstray, Bool.or_false, if_neg (by simpa using hhead)]

theorem underscore_mem_of_stray (h : hasStrayUnderscore cs = true) : '_' ∈ cs := by
  induction cs with
  | nil => cases h
  | cons c rest ih =>
      by_cases hc : c = '_'
      · exact hc ▸ List.mem_cons_self
      · rw [hasStrayUnderscore_cons hc] at h
        exact List.mem_cons_of_mem c (ih h)

theorem eq_ungrouped_of_not_mem (h : '_' ∉ dropUnderscores cs) :
    dropUnderscores cs = ungrouped cs ∧ cs.head? ≠ some '_' ∧ hasStrayUnderscore cs = false := by
  unfold dropUnderscores at h ⊢
  split_ifs at h ⊢ with hcond
  · rcases Bool.or_eq_true_iff.mp hcond with hhead | hstray
    · exact absurd (List.mem_of_head? (eq_of_beq hhead)) h
    · exact absurd (underscore_mem_of_stray hstray) h
  · rw [Bool.not_eq_true, Bool.or_eq_false_iff] at hcond
    exact ⟨rfl, by simpa using hcond.1, hcond.2⟩

theorem plainNatural?_eq_some_iff :
    plainNatural? cs = some n ↔ cs ≠ [] ∧ (∀ c ∈ cs, isDecimalDigit c = true) ∧
      (cs.head? = some '0' → cs.length = 1) ∧ digitsValue cs = n := by
  unfold plainNatural?
  rw [Option.ite_none_left_eq_some, Option.some.injEq]
  simp only [Bool.or_eq_true, Bool.and_eq_true, Bool.not_eq_true', List.isEmpty_iff, bne_iff_ne,
    beq_iff_eq, not_or, not_and, not_not, Bool.not_eq_false, List.all_eq_true, and_assoc, ne_eq]

theorem plainNatural?_ungrouped (h : Grouped digits)
    (hhead : digits.head? = some '0' → digits = ['0']) :
    plainNatural? (ungrouped digits) = some (groupedValue digits) := by
  rw [plainNatural?_eq_some_iff]
  refine ⟨?_, h.isDecimalDigit, ?_, rfl⟩
  · obtain ⟨c, rest, hc, rfl⟩ := h.exists_cons
    rw [ungrouped_cons hc]
    exact List.cons_ne_nil _ _
  · intro hzero
    rw [h.head?_ungrouped] at hzero
    rw [hhead hzero]
    rfl

theorem point_not_mem (h : Grouped digits) : '.' ∉ digits := by
  intro hmem
  rcases h.mem hmem with hpoint | hpoint
  · revert hpoint
    decide
  · cases hpoint

theorem plain_natural (h : Grouped digits) (hfraction : ZeroFraction fraction) :
    dropUnderscores (dropFraction (digits ++ fraction)) = ungrouped digits := by
  obtain ⟨c, rest, hc, hcons⟩ := h.exists_cons
  rw [dropFraction_append (point_not_mem h) hfraction, dropUnderscores_eq _ h.hasStrayUnderscore]
  rw [hcons, List.head?_cons]
  exact fun heq => ne_of_isDecimalDigit hc (by decide) (Option.some.inj heq)

theorem plain_negative {mark : List Char} (hmark : Optional '_' mark) (h : Grouped digits)
    (hfraction : ZeroFraction fraction) :
    dropUnderscores (dropFraction ('-' :: (mark ++ (digits ++ fraction)))) =
      '-' :: ungrouped digits := by
  have hpoint := point_not_mem h
  have hstray := h.hasStrayUnderscore
  obtain ⟨c, rest, hc, hcons⟩ := h.exists_cons
  have hnone : '.' ∉ '-' :: (mark ++ digits) := by
    rcases hmark with rfl | rfl
    · simpa using hpoint
    · simpa using hpoint
  have hassoc : '-' :: (mark ++ (digits ++ fraction)) = ('-' :: (mark ++ digits)) ++ fraction := by
    rw [List.cons_append, List.append_assoc]
  rw [hassoc, dropFraction_append hnone hfraction, dropUnderscores_eq (by simp)]
  · rcases hmark with rfl | rfl
    · rfl
    · rfl
  · rw [hasStrayUnderscore_cons (by decide)]
    rcases hmark with rfl | rfl
    · exact hstray
    · rw [List.singleton_append, hcons,
        hasStrayUnderscore_underscore (ne_of_isDecimalDigit hc (by decide)), ← hcons, hstray]

theorem plainInteger?_of_ne (h : cs.head? ≠ some '-') :
    plainInteger? cs = (plainNatural? cs).map Nat.cast := by
  unfold plainInteger?
  split
  next => exact absurd rfl h
  next => cases plainNatural? cs <;> rfl

theorem plainInteger?_minus (cs : List Char) :
    plainInteger? ('-' :: cs) = (plainNatural? cs).map fun n => -Nat.cast n := by
  rw [plainInteger?]
  cases plainNatural? cs <;> rfl

/-- Without a fraction and underscores an integer is in its plain form. -/
theorem Stripped.plainInteger (h : Stripped cs i) :
    plainInteger? (dropUnderscores (dropFraction cs)) = some i := by
  cases h with
  | natural h =>
      obtain @⟨digits, _, hdigits, hhead, hfraction⟩ := h
      have hminus : (ungrouped digits).head? ≠ some '-' := by
        intro hmem
        cases hdigits.isDecimalDigit '-' (List.mem_of_head? hmem)
      rw [plain_natural hdigits hfraction, plainInteger?_of_ne hminus,
        plainNatural?_ungrouped hdigits hhead]
      rfl
  | negative hmark h =>
      obtain ⟨hdigits, hhead, hfraction⟩ := h
      rw [plain_negative hmark hdigits hfraction, plainInteger?_minus,
        plainNatural?_ungrouped hdigits hhead]
      rfl

/-- Characters whose digits are in plain form are grouped digits, with an underscore in front at
most. -/
theorem grouped_of_plainNatural (hstray : hasStrayUnderscore cs = false)
    (h : plainNatural? (ungrouped cs) = some n) :
    ∃ mark digits, Optional '_' mark ∧ Grouped digits ∧
      (digits.head? = some '0' → digits = ['0']) ∧ groupedValue digits = n ∧
      cs = mark ++ digits := by
  obtain ⟨hne, hdigits, hhead, hvalue⟩ := plainNatural?_eq_some_iff.mp h
  obtain rfl | ⟨mark, digits, hmark, hgrouped, rfl⟩ := grouped_of_ungrouped hstray hdigits
  · exact absurd rfl hne
  have hungrouped : ungrouped (mark ++ digits) = ungrouped digits := by
    rcases hmark with rfl | rfl
    · rfl
    · rfl
  rw [hungrouped] at hhead hvalue
  refine ⟨mark, digits, hmark, hgrouped, ?_, hvalue, rfl⟩
  intro hzero
  rw [hgrouped.head?_ungrouped] at hhead
  obtain ⟨c, rfl⟩ := hgrouped.eq_singleton (hhead hzero)
  rw [Option.some.inj hzero]

theorem stripped_of_plainInteger (h : plainInteger? (dropUnderscores (dropFraction cs)) = some i) :
    Stripped cs i := by
  obtain ⟨fraction, hfraction, hcs⟩ := exists_dropFraction cs
  rw [hcs]
  generalize dropFraction cs = whole at h
  by_cases hminus : (dropUnderscores whole).head? = some '-'
  · obtain ⟨rest, hplain⟩ := List.head?_eq_some_iff.mp hminus
    rw [hplain, plainInteger?_minus] at h
    obtain ⟨n, hn, rfl⟩ := Option.map_eq_some_iff.mp h
    have hmem : '_' ∉ dropUnderscores whole := by
      rw [hplain]
      intro hmem
      cases (plainNatural?_eq_some_iff.mp hn).2.1 '_'
        ((List.mem_cons.mp hmem).resolve_left (by decide))
    obtain ⟨heq, hhead, hstray⟩ := eq_ungrouped_of_not_mem hmem
    rw [heq] at hplain
    match whole with
    | [] => cases hplain
    | c :: behind =>
        have hc : c ≠ '_' := fun heq => hhead (congrArg some heq)
        obtain ⟨rfl, rfl⟩ : c = '-' ∧ ungrouped behind = rest := by
          have hcons : ungrouped (c :: behind) = c :: ungrouped behind :=
            List.filter_cons_of_pos (bne_iff_ne.mpr hc)
          rw [hcons] at hplain
          exact List.cons.inj hplain
        rw [hasStrayUnderscore_cons hc] at hstray
        obtain ⟨mark, digits, hmark, hgrouped, hzero, rfl, rfl⟩ :=
          grouped_of_plainNatural hstray hn
        rw [List.cons_append, List.append_assoc]
        exact .negative hmark (.mk hgrouped hzero hfraction)
  · rw [plainInteger?_of_ne hminus] at h
    obtain ⟨n, hn, rfl⟩ := Option.map_eq_some_iff.mp h
    have hmem : '_' ∉ dropUnderscores whole := by
      intro hmem
      cases (plainNatural?_eq_some_iff.mp hn).2.1 '_' hmem
    obtain ⟨heq, hhead, hstray⟩ := eq_ungrouped_of_not_mem hmem
    rw [heq] at hn
    obtain ⟨mark, digits, rfl | rfl, hgrouped, hzero, rfl, rfl⟩ :=
      grouped_of_plainNatural hstray hn
    · exact .natural (.mk hgrouped hzero hfraction)
    · exact absurd rfl hhead

end Plain

section Length

theorem le_digitsValue (hc : isDecimalDigit c = true) (hzero : c ≠ '0') (cs : List Char) :
    10 ^ cs.length ≤ digitsValue (c :: cs) := by
  have hlow : 48 ≤ c.toNat := of_decide_eq_true (Bool.and_eq_true_iff.mp hc).1
  have hne : c.toNat ≠ 48 := fun heq => hzero (Char.toNat_inj.mp heq)
  have hvalue : 1 ≤ digitsValue [c] := by
    change 1 ≤ 10 * 0 + (c.toNat - 48)
    omega
  have happend := digitsValue_append [c] cs
  rw [List.singleton_append] at happend
  rw [happend]
  nlinarith [Nat.one_le_pow cs.length 10 (by norm_num)]

/-- Digits without a superfluous zero in front are as many as their number needs. -/
theorem length_ungrouped_le {k : ℕ} (hk : k ≠ 0) (h : Grouped digits)
    (hhead : digits.head? = some '0' → digits = ['0']) (hvalue : groupedValue digits < 10 ^ k) :
    (ungrouped digits).length ≤ k := by
  obtain ⟨c, rest, hc, rfl⟩ := h.exists_cons
  unfold groupedValue at hvalue
  rw [ungrouped_cons hc] at hvalue ⊢
  by_cases hzero : c = '0'
  · rw [List.head?_cons, hzero] at hhead
    rw [(List.cons.inj (hhead rfl)).2]
    exact Nat.one_le_iff_ne_zero.mpr hk
  · have hpow := lt_of_le_of_lt (le_digitsValue hc hzero (ungrouped rest)) hvalue
    exact (Nat.pow_lt_pow_iff_right (by norm_num)).mp hpow

/-- Not too many digits in front, or a zero. -/
def Short (cs : List Char) : Prop :=
  (cs.takeWhile isDecimalDigit).head? = some '0' ∨
    (cs.takeWhile isDecimalDigit).length < Layout.digitLimit

theorem Short.minus (h : Short cs) : beginsTooLong ('-' :: cs) = false := by
  unfold beginsTooLong
  rcases h with hzero | hlength
  · simp [hzero]
  · simp
    omega

theorem Short.beginsTooLong (h : Short cs) (hminus : cs.head? ≠ some '-') :
    beginsTooLong cs = false := by
  unfold Text.beginsTooLong
  rcases h with hzero | hlength
  · simp [hzero, hminus]
  · simp [hminus]
    omega

theorem short_of_head (h : ∀ c, cs.head? = some c → c = '0' ∨ isDecimalDigit c = false) :
    Short cs := by
  match cs with
  | [] => exact .inr (by decide)
  | c :: rest =>
      rcases h c rfl with rfl | hc
      · exact .inl (by rw [List.takeWhile_cons_of_pos isDecimalDigit_zero]; rfl)
      · refine .inr ?_
        rw [List.takeWhile_cons_of_neg (Bool.eq_false_iff.mp hc)]
        decide

theorem WholeText.short (h : WholeText cs n) (hn : n < 10 ^ (Layout.digitLimit - 1))
    (hrest : ∀ c, rest.head? = some c → isDecimalDigit c = false) : Short (cs ++ rest) := by
  obtain @⟨digits, fraction, hdigits, hhead, hfraction⟩ := h
  have hlength := length_ungrouped_le (by decide) hdigits hhead hn
  have hstop : ∀ c, (fraction ++ rest).head? = some c → isDecimalDigit c = false := by
    cases hfraction with
    | none => exact hrest
    | zeros k =>
        intro c hc
        rw [← Option.some.inj hc]
        decide
  right
  rw [List.append_assoc]
  have hle := hdigits.length_takeWhile_le hstop
  have hlimit : Layout.digitLimit - 1 < Layout.digitLimit := by decide
  omega

theorem Grouped.short_ungrouped (h : Grouped digits)
    (hhead : digits.head? = some '0' → digits = ['0'])
    (hvalue : groupedValue digits < 10 ^ (Layout.digitLimit - 1)) : Short (ungrouped digits) := by
  have hlength := length_ungrouped_le (by decide) h hhead hvalue
  have hlimit : Layout.digitLimit - 1 < Layout.digitLimit := by decide
  right
  rw [List.takeWhile_eq_self_iff.mpr h.isDecimalDigit]
  omega

end Length

theorem Stripped.not_beginsTooLong (h : Stripped cs i)
    (hi : i.natAbs < 10 ^ (Layout.digitLimit - 1)) :
    beginsTooLong (dropUnderscores (dropFraction cs)) = false := by
  cases h with
  | natural h =>
      obtain @⟨digits, _, hdigits, hhead, hfraction⟩ := h
      rw [plain_natural hdigits hfraction]
      refine (hdigits.short_ungrouped hhead hi).beginsTooLong ?_
      intro hminus
      cases hdigits.isDecimalDigit '-' (List.mem_of_head? hminus)
  | negative hmark h =>
      obtain ⟨hdigits, hhead, hfraction⟩ := h
      rw [plain_negative hmark hdigits hfraction]
      rw [Int.natAbs_neg] at hi
      exact (hdigits.short_ungrouped hhead hi).minus

end VectorPath.Text
