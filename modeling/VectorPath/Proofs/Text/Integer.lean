import VectorPath.Proofs.Text.Grouping

/-!
# Loosely written integers

The texts that settings take for an integer, as a grammar: blanks, a sign, zeros in front with
underscores among them, digits with single underscores between some of them, and a fraction of
zeros. Reading a text finds an integer exactly if the text is one of these, and then the integer is
the one that the digits and the sign denote. Only integers near the limit of digits are left out.
-/

namespace VectorPath.Text

variable {c : Char} {cs rest fill zeros digits fraction : List Char} {n : ℕ} {i : ℤ}

/-- Zeros in front of an integer, with underscores among them. -/
inductive LeadingZeros : List Char → Prop
  | none : LeadingZeros []
  | zero {fill : List Char} (h : ∀ c ∈ fill, isZeroFiller c = true) : LeadingZeros ('0' :: fill)

/-- The text of an integer without blanks around it. A minus sign stands before the zeros in front
or after them, where an underscore may follow it. -/
inductive IntegerText : List Char → ℤ → Prop
  | natural {plus zeros cs : List Char} {n : ℕ} (hplus : Optional '+' plus)
      (hzeros : LeadingZeros zeros) (h : WholeText cs n) : IntegerText (plus ++ (zeros ++ cs)) n
  | negative {zeros cs : List Char} {n : ℕ} (hzeros : LeadingZeros zeros) (h : WholeText cs n) :
      IntegerText ('-' :: (zeros ++ cs)) (-n)
  | late {plus fill mark cs : List Char} {n : ℕ} (hplus : Optional '+' plus)
      (hfill : ∀ c ∈ fill, isZeroFiller c = true) (hmark : Optional '_' mark)
      (h : WholeText cs n) : IntegerText (plus ++ '0' :: (fill ++ '-' :: (mark ++ cs))) (-n)

inductive Spells : List Char → ℤ → Prop
  | mk {before cs after : List Char} {i : ℤ} (hbefore : ∀ c ∈ before, isBlank c = true)
      (hafter : ∀ c ∈ after, isBlank c = true) (h : IntegerText cs i) :
      Spells (before ++ (cs ++ after)) i

section Zeros

theorem dropZeros_of_ne_zero (hc : isDecimalDigit c = true) (hzero : c ≠ '0') (rest : List Char) :
    dropZeros (c :: rest) = some (c :: rest) := by
  have hminus : c ≠ '-' := ne_of_isDecimalDigit hc (by decide)
  simp [dropZeros, hminus, hc, hzero]

/-- Zeros and underscores are dropped in front of a digit or a minus sign. -/
theorem dropZeros_fill (hfill : ∀ c ∈ fill, isZeroFiller c = true) (hc : isZeroFiller c = false)
    (hkept : isDecimalDigit c = true ∨ c = '-') (rest : List Char) :
    dropZeros ('0' :: (fill ++ c :: rest)) = some (c :: rest) := by
  have hdrop : (fill ++ c :: rest).dropWhile isZeroFiller = c :: rest := by
    rw [List.dropWhile_append_of_pos hfill,
      List.dropWhile_cons_of_neg (Bool.eq_false_iff.mp hc)]
  have hpoint : c ≠ '.' := by
    rcases hkept with hdigit | rfl
    · exact ne_of_isDecimalDigit hdigit (by decide)
    · decide
  simpa [dropZeros, hdrop, isDecimalDigit_zero] using fun hdigit =>
    hkept.resolve_left (Bool.eq_false_iff.mp hdigit)

/-- The last of nothing but zeros and underscores stays, if it is a zero. -/
theorem dropZeros_zero (hfill : ∀ c ∈ fill, isZeroFiller c = true)
    (hlast : fill.getLast?.getD '0' = '0') (hfraction : ZeroFraction fraction) :
    dropZeros ('0' :: (fill ++ fraction)) = some ('0' :: fraction) := by
  have htake : (fill ++ fraction).takeWhile isZeroFiller = fill := by
    rw [List.takeWhile_append_of_pos hfill]
    cases hfraction with
    | none => simp
    | zeros k => simp [isZeroFiller]
  have hdrop : (fill ++ fraction).dropWhile isZeroFiller = fraction := by
    rw [List.dropWhile_append_of_pos hfill]
    cases hfraction with
    | none => rfl
    | zeros k => simp [isZeroFiller]
  cases hfraction with
  | none =>
      rw [List.append_nil] at htake hdrop ⊢
      simp [dropZeros, hdrop, htake, hlast, isDecimalDigit_zero]
  | zeros k => simp [dropZeros, hdrop, htake, hlast, isDecimalDigit_zero]

/-- All zeros and underscores but the last. -/
theorem leadingZeros_dropLast (tail : List Char) :
    ∃ zeros, LeadingZeros zeros ∧ '0' :: tail =
      zeros ++ (tail.takeWhile isZeroFiller).getLast?.getD '0' :: tail.dropWhile isZeroFiller := by
  have hfill : ∀ c ∈ tail.takeWhile isZeroFiller, isZeroFiller c = true :=
    fun c hc => List.mem_takeWhile_imp hc
  have htail := List.takeWhile_append_dropWhile (p := isZeroFiller) (l := tail)
  generalize tail.takeWhile isZeroFiller = fill at hfill htail
  generalize tail.dropWhile isZeroFiller = rest at htail
  subst htail
  rcases List.eq_nil_or_concat fill with rfl | ⟨front, last, rfl⟩
  · exact ⟨[], .none, rfl⟩
  · refine ⟨'0' :: front, .zero fun c hc => hfill c (by simp [hc]), ?_⟩
    simp

/-- What is dropped are zeros in front. An underscore that stays is not followed by a digit. -/
theorem exists_leadingZeros (h : dropZeros cs = some rest) :
    (∃ zeros, LeadingZeros zeros ∧ cs = zeros ++ rest) ∧
      ∀ c more, rest = '_' :: c :: more → isDecimalDigit c = false := by
  unfold dropZeros at h
  split at h
  next => cases h
  next c tail =>
    split_ifs at h with hminus hdigit hzero
    · obtain rfl := Option.some.inj h
      refine ⟨⟨[], .none, rfl⟩, fun d more heq => ?_⟩
      rw [(List.cons.inj heq).1] at hminus
      cases hminus
    · obtain rfl := Option.some.inj h
      refine ⟨⟨[], .none, rfl⟩, fun d more heq => ?_⟩
      rw [(List.cons.inj heq).1] at hdigit
      exact absurd (by decide) hdigit
    · obtain rfl : c = '0' := by simpa using hzero
      obtain ⟨zeros, hzeros, heq⟩ := leadingZeros_dropLast tail
      split at h
      next hdrop =>
        obtain rfl := Option.some.inj h
        rw [hdrop] at heq
        exact ⟨⟨zeros, hzeros, heq⟩, fun d more hmore => by cases (List.cons.inj hmore).2⟩
      next more hdrop =>
        obtain rfl := Option.some.inj h
        rw [hdrop] at heq
        refine ⟨⟨zeros, hzeros, heq⟩, fun d more' hmore => ?_⟩
        obtain ⟨rfl, -⟩ := List.cons.inj (List.cons.inj hmore).2
        decide
      next d more _ hdrop =>
        split_ifs at h with hkept
        obtain rfl := Option.some.inj h
        have hfill : LeadingZeros ('0' :: tail.takeWhile isZeroFiller) :=
          .zero fun c hc => List.mem_takeWhile_imp hc
        refine ⟨⟨_, hfill, ?_⟩, fun e more' hmore => ?_⟩
        · rw [List.cons_append, ← hdrop, List.takeWhile_append_dropWhile]
        · rw [(List.cons.inj hmore).1] at hkept
          cases hkept

theorem WholeText.exists_cons (h : WholeText cs n) :
    ∃ c rest, isDecimalDigit c = true ∧ cs = c :: rest := by
  obtain ⟨hdigits, -, -⟩ := h
  obtain ⟨c, rest, hc, rfl⟩ := hdigits.exists_cons
  exact ⟨c, rest ++ _, hc, rfl⟩

theorem dropZeros_whole (hzeros : LeadingZeros zeros) (h : WholeText cs n) :
    dropZeros (zeros ++ cs) = some cs := by
  obtain @⟨digits, fraction, hdigits, hhead, hfraction⟩ := h
  obtain ⟨c, rest, hc, rfl⟩ := hdigits.exists_cons
  by_cases hzero : c = '0'
  · subst hzero
    rw [hhead rfl, List.singleton_append]
    cases hzeros with
    | none =>
        have hnone : ∀ c ∈ ([] : List Char), isZeroFiller c = true := nofun
        exact dropZeros_zero hnone rfl hfraction
    | @zero fill hfill =>
        have hlast : ∀ c ∈ fill ++ ['0'], isZeroFiller c = true := by
          intro c hc
          rcases List.mem_append.mp hc with hc | hc
          · exact hfill c hc
          · rw [List.mem_singleton.mp hc]
            rfl
        have hdrop := dropZeros_zero hlast (by simp) hfraction
        rwa [List.append_assoc, List.singleton_append] at hdrop
  · rw [List.cons_append]
    cases hzeros with
    | none => exact dropZeros_of_ne_zero hc hzero _
    | zero hfill =>
        have hkept : isZeroFiller c = false := by
          unfold isZeroFiller
          rw [Bool.or_eq_false_iff, beq_eq_false_iff_ne, beq_eq_false_iff_ne]
          exact ⟨hzero, ne_of_isDecimalDigit hc (by decide)⟩
        exact dropZeros_fill hfill hkept (.inl hc) _

end Zeros

section Signs

theorem dropSignedZeros_plus (h : cs.head? ≠ some '-') :
    dropSignedZeros ('+' :: cs) = dropZeros cs := by
  unfold dropSignedZeros
  split
  next rest heq => exact absurd (congrArg List.head? (List.cons.inj heq).2) h
  next heq => rw [(List.cons.inj heq).2]
  next heq => cases heq
  next hplus _ => exact absurd rfl (hplus cs)

theorem dropSignedZeros_of_ne (hplus : cs.head? ≠ some '+') (hminus : cs.head? ≠ some '-') :
    dropSignedZeros cs = dropZeros cs := by
  unfold dropSignedZeros
  split
  next => exact absurd rfl hplus
  next => exact absurd rfl hplus
  next => exact absurd rfl hminus
  next => rfl

/-- A plus sign in front of what begins with a digit makes no difference. -/
theorem dropSignedZeros_optional {plus : List Char} (hplus : Optional '+' plus)
    (hc : isDecimalDigit c = true) (rest : List Char) :
    dropSignedZeros (plus ++ c :: rest) = dropZeros (c :: rest) := by
  have hminus : (c :: rest).head? ≠ some '-' :=
    fun heq => ne_of_isDecimalDigit hc (by decide) (Option.some.inj heq)
  rcases hplus with rfl | rfl
  · exact dropSignedZeros_of_ne
      (fun heq => ne_of_isDecimalDigit hc (by decide) (Option.some.inj heq)) hminus
  · exact dropSignedZeros_plus hminus

theorem LeadingZeros.exists_cons (hzeros : LeadingZeros zeros) (h : WholeText cs n) :
    ∃ c rest, isDecimalDigit c = true ∧ zeros ++ cs = c :: rest := by
  cases hzeros with
  | none => exact h.exists_cons
  | zero _ => exact ⟨'0', _, isDecimalDigit_zero, rfl⟩

/-- Dropping a plus sign and zeros in front leaves the same integer. -/
theorem IntegerText.stripped (h : IntegerText cs i) :
    ∃ rest, dropSignedZeros cs = some rest ∧ Stripped rest i := by
  cases h with
  | natural hplus hzeros h =>
      obtain ⟨c, rest, hc, hcons⟩ := hzeros.exists_cons h
      refine ⟨_, ?_, .natural h⟩
      rw [hcons, dropSignedZeros_optional hplus hc, ← hcons, dropZeros_whole hzeros h]
  | negative hzeros h =>
      refine ⟨_, ?_, .negative (.inl rfl) h⟩
      rw [dropSignedZeros, dropZeros_whole hzeros h]
      rfl
  | late hplus hfill hmark h =>
      refine ⟨_, ?_, .negative hmark h⟩
      rw [dropSignedZeros_optional hplus isDecimalDigit_zero,
        dropZeros_fill hfill (by decide) (.inr rfl)]

theorem Stripped.integerText {plus : List Char} (hplus : Optional '+' plus)
    (hminus : ∀ more, cs ≠ '-' :: more) (hdrop : dropZeros cs = some rest) (h : Stripped rest i) :
    IntegerText (plus ++ cs) i := by
  obtain ⟨⟨zeros, hzeros, rfl⟩, -⟩ := exists_leadingZeros hdrop
  cases h with
  | natural h => exact .natural hplus hzeros h
  | negative hmark h =>
      cases hzeros with
      | none => exact absurd rfl (hminus _)
      | zero hfill => exact .late hplus hfill hmark h

/-- What is an integer without a plus sign and zeros in front is one with them. -/
theorem integerText_of_stripped (hdrop : dropSignedZeros cs = some rest) (h : Stripped rest i) :
    IntegerText cs i := by
  unfold dropSignedZeros at hdrop
  split at hdrop
  next => cases hdrop
  next tail hminus => exact h.integerText (.inr rfl) hminus hdrop
  next tail =>
    obtain ⟨behind, hbehind, rfl⟩ := Option.map_eq_some_iff.mp hdrop
    obtain ⟨⟨zeros, hzeros, rfl⟩, hmark⟩ := exists_leadingZeros hbehind
    cases h with
    | natural h =>
        obtain ⟨c, more, hc, hcons⟩ := h.exists_cons
        exact absurd (List.cons.inj hcons).1.symm (ne_of_isDecimalDigit hc (by decide))
    | negative hoptional h =>
        rcases hoptional with rfl | rfl
        · exact .negative hzeros h
        · obtain ⟨c, more, hc, rfl⟩ := h.exists_cons
          rw [hmark c more rfl] at hc
          cases hc
  next _ hminus => exact h.integerText (.inl rfl) hminus hdrop

end Signs

section Blanks

theorem not_isBlank_of_isDecimalDigit (h : isDecimalDigit c = true) : isBlank c = false := by
  have hlow : 48 ≤ c.toNat := of_decide_eq_true (Bool.and_eq_true_iff.mp h).1
  have hhigh : c.toNat ≤ 57 := of_decide_eq_true (Bool.and_eq_true_iff.mp h).2
  unfold isBlank
  simp
  omega

theorem not_isDecimalDigit_of_isBlank (h : isBlank c = true) : isDecimalDigit c = false := by
  rw [← Bool.not_eq_true]
  intro hdigit
  rw [not_isBlank_of_isDecimalDigit hdigit] at h
  cases h

/-- Whatever is between the blanks, if it begins and ends with something else. -/
theorem trimBoth_append {p : Char → Bool} {before after : List Char}
    (hbefore : ∀ c ∈ before, p c = true) (hafter : ∀ c ∈ after, p c = true)
    (hcs : ∀ c ∈ cs, p c = false) (hne : cs ≠ []) : trimBoth p (before ++ (cs ++ after)) = cs := by
  have hdrop : ∀ xs ys : List Char, xs ≠ [] → (∀ c ∈ xs, p c = false) →
      (xs ++ ys).dropWhile p = xs ++ ys := by
    intro xs ys hxs h
    obtain ⟨c, rest, rfl⟩ := List.exists_cons_of_ne_nil hxs
    exact List.dropWhile_cons_of_neg (Bool.eq_false_iff.mp (h c List.mem_cons_self))
  unfold trimBoth
  rw [List.dropWhile_append_of_pos hbefore, hdrop cs after hne hcs, List.reverse_append,
    List.dropWhile_append_of_pos fun c hc => hafter c (List.mem_reverse.mp hc)]
  have hreverse := hdrop cs.reverse [] (mt List.reverse_eq_nil_iff.mp hne)
    fun c hc => hcs c (List.mem_reverse.mp hc)
  rw [List.append_nil] at hreverse
  rw [hreverse, List.reverse_reverse]

theorem exists_trimBoth (p : Char → Bool) (cs : List Char) :
    ∃ before after, (∀ c ∈ before, p c = true) ∧ (∀ c ∈ after, p c = true) ∧
      cs = before ++ (trimBoth p cs ++ after) := by
  refine ⟨cs.takeWhile p, ((cs.dropWhile p).reverse.takeWhile p).reverse,
    fun c hc => List.mem_takeWhile_imp hc,
    fun c hc => List.mem_takeWhile_imp (List.mem_reverse.mp hc), ?_⟩
  unfold trimBoth
  rw [← List.reverse_append, List.takeWhile_append_dropWhile, List.reverse_reverse,
    List.takeWhile_append_dropWhile]

theorem ZeroFraction.mem (h : ZeroFraction fraction) (hc : c ∈ fraction) : c = '.' ∨ c = '0' := by
  cases h with
  | none => cases hc
  | zeros k =>
      rcases List.mem_cons.mp hc with rfl | hc
      · exact .inl rfl
      · exact .inr (List.eq_of_mem_replicate hc)

theorem WholeText.isBlank (h : WholeText cs n) : ∀ c ∈ cs, isBlank c = false := by
  obtain ⟨hdigits, -, hfraction⟩ := h
  intro c hc
  rcases List.mem_append.mp hc with hc | hc
  · rcases hdigits.mem hc with hdigit | rfl
    · exact not_isBlank_of_isDecimalDigit hdigit
    · decide
  · rcases hfraction.mem hc with rfl | rfl
    · decide
    · decide

theorem isBlank_of_isZeroFiller (h : isZeroFiller c = true) : isBlank c = false := by
  rcases Bool.or_eq_true_iff.mp h with hc | hc
  · rw [eq_of_beq hc]
    decide
  · rw [eq_of_beq hc]
    decide

theorem Optional.isBlank {d : Char} (h : Optional d cs) (hd : isBlank d = false) :
    ∀ c ∈ cs, isBlank c = false := by
  rcases h with rfl | rfl
  · exact nofun
  · exact List.forall_mem_singleton.mpr hd

theorem IntegerText.isBlank (h : IntegerText cs i) : ∀ c ∈ cs, isBlank c = false := by
  have hleading : ∀ {zeros}, LeadingZeros zeros → ∀ c ∈ zeros, Text.isBlank c = false := by
    intro zeros hzeros
    cases hzeros with
    | none => exact nofun
    | zero hfill =>
        exact List.forall_mem_cons.mpr
          ⟨by decide, fun c hc => isBlank_of_isZeroFiller (hfill c hc)⟩
  cases h with
  | natural hplus hzeros h =>
      exact List.forall_mem_append.mpr ⟨hplus.isBlank (by decide),
        List.forall_mem_append.mpr ⟨hleading hzeros, h.isBlank⟩⟩
  | negative hzeros h =>
      exact List.forall_mem_cons.mpr
        ⟨by decide, List.forall_mem_append.mpr ⟨hleading hzeros, h.isBlank⟩⟩
  | late hplus hfill hmark h =>
      have hminus : Text.isBlank '-' = false := by decide
      have hbehind := List.forall_mem_append.mpr ⟨hmark.isBlank (by decide), h.isBlank⟩
      have hzeros := List.forall_mem_append.mpr
        ⟨hleading (.zero hfill), List.forall_mem_cons.mpr ⟨hminus, hbehind⟩⟩
      exact List.forall_mem_append.mpr ⟨hplus.isBlank (by decide), hzeros⟩

theorem IntegerText.ne_nil (h : IntegerText cs i) : cs ≠ [] := by
  rintro rfl
  obtain ⟨rest, hdrop, -⟩ := h.stripped
  cases hdrop

end Blanks

theorem spells_of_settingInteger {s : String} (h : settingInteger? s = some i) :
    Spells s.toList i := by
  obtain ⟨rest, hdrop, hplain⟩ := Option.bind_eq_some_iff.mp h
  obtain ⟨before, after, hbefore, hafter, htext⟩ := exists_trimBoth isBlank s.toList
  rw [htext]
  dsimp only at hplain
  split_ifs at hplain
  exact .mk hbefore hafter (integerText_of_stripped hdrop (stripped_of_plainInteger hplain))

/-- A text is read as an integer exactly if it spells the integer. -/
theorem settingInteger?_eq_some_iff {s : String} (hi : i.natAbs < 10 ^ (Layout.digitLimit - 1)) :
    settingInteger? s = some i ↔ Spells s.toList i := by
  refine ⟨spells_of_settingInteger, ?_⟩
  intro h
  generalize htext : s.toList = text at h
  obtain ⟨hbefore, hafter, h⟩ := h
  obtain ⟨rest, hdrop, hstripped⟩ := h.stripped
  unfold settingInteger?
  rw [htext, trimBoth_append hbefore hafter h.isBlank h.ne_nil, hdrop]
  simp only [Option.bind_eq_bind, Option.bind_some]
  rw [hstripped.not_beginsTooLong hi, hstripped.plainInteger]
  rfl

theorem LeadingZeros.short (hzeros : LeadingZeros zeros) (h : WholeText cs n)
    (hn : n < 10 ^ (Layout.digitLimit - 1))
    (hrest : ∀ c, rest.head? = some c → isDecimalDigit c = false) :
    Short (zeros ++ cs ++ rest) := by
  cases hzeros with
  | none => exact h.short hn hrest
  | zero _ => exact short_of_head fun c hc => .inl (Option.some.inj hc).symm

/-- The text of an integer does not begin with too many digits. -/
theorem Spells.not_beginsTooLong (h : Spells cs i) (hi : i.natAbs < 10 ^ (Layout.digitLimit - 1)) :
    beginsTooLong cs = false := by
  obtain @⟨before, text, after, _, hbefore, hafter, h⟩ := h
  have hstop : ∀ c, after.head? = some c → isDecimalDigit c = false :=
    fun c hc => not_isDecimalDigit_of_isBlank (hafter c (List.mem_of_head? hc))
  cases before with
  | cons b before =>
      have hb := hbefore b List.mem_cons_self
      refine Short.beginsTooLong (short_of_head fun c hc => ?_) fun hminus => ?_
      · rw [← Option.some.inj hc]
        exact .inr (not_isDecimalDigit_of_isBlank hb)
      · rw [Option.some.inj hminus] at hb
        cases hb
  | nil =>
      rw [List.nil_append]
      cases h with
      | natural hplus hzeros h =>
          obtain ⟨c, more, hc, hcons⟩ := hzeros.exists_cons h
          rcases hplus with rfl | rfl
          · refine (hzeros.short h hi hstop).beginsTooLong ?_
            rw [hcons]
            exact fun hminus => ne_of_isDecimalDigit hc (by decide) (Option.some.inj hminus)
          · exact Short.beginsTooLong (short_of_head fun c hc => .inr (by cases hc; decide))
              (by simp)
      | negative hzeros h =>
          rw [Int.natAbs_neg] at hi
          exact (hzeros.short h hi hstop).minus
      | late hplus _ _ _ =>
          rcases hplus with rfl | rfl
          · exact Short.beginsTooLong (short_of_head fun c hc => .inl (Option.some.inj hc).symm)
              (by simp)
          · exact Short.beginsTooLong (short_of_head fun c hc => .inr (by cases hc; decide))
              (by simp)

end VectorPath.Text
