import Mathlib.Data.Nat.Notation
import Mathlib.Order.Lattice
import Mathlib.Order.Nat
import VectorPath.Json.Reader
import VectorPath.Proofs.Number.Numeral
import VectorPath.Value.Display

/-!
# The nesting of a text

How deeply a text nests is a matter of its brackets alone and not of how the reader recurs: brackets
inside of literal texts do not count, and a literal text ends where the reader ends it. A literal
text or a number that has been read leaves the nesting of what follows as it was, and the integers
that are read are short enough to be written again.
-/

namespace VectorPath.Json

/-- Where a character stands with respect to the literal texts. -/
inductive Standing
  | outside
  | inside
  | escaped

namespace Standing

def next : Standing → Char → Standing
  | .outside, c => if c = '"' then .inside else .outside
  | .inside, c => if c = '"' then .outside else if c = '\\' then .escaped else .inside
  | .escaped, _ => .inside

/-- The number of open brackets behind a character, from their number before it. -/
def opened : Standing → ℕ → Char → ℕ
  | .outside, n, c =>
      if c = '[' ∨ c = '\x7b' then n + 1 else if c = ']' ∨ c = '\x7d' then n - 1 else n
  | _, n, _ => n

end Standing

/-- The most brackets open at once, `n` of which are open before the first character. -/
def nestingFrom : Standing → ℕ → List Char → ℕ
  | _, n, [] => n
  | s, n, c :: rest => max n (nestingFrom (s.next c) (s.opened n c) rest)

/-- The most brackets of a text that are open at once; those inside of literal texts do not
count. -/
def nesting (text : List Char) : ℕ := nestingFrom .outside 0 text

section Nesting

variable {s : Standing} {n : ℕ} {c : Char} {rest taken : List Char}

theorem le_nestingFrom (s : Standing) (n : ℕ) (cs : List Char) : n ≤ nestingFrom s n cs := by
  cases cs with
  | nil => exact le_rfl
  | cons c rest => exact le_max_left ..

theorem nestingFrom_le_cons (s : Standing) (n : ℕ) (c : Char) (rest : List Char) :
    nestingFrom (s.next c) (s.opened n c) rest ≤ nestingFrom s n (c :: rest) :=
  le_max_right ..

/-- A character that begins no text and opens or closes no bracket. -/
def isNeutral (c : Char) : Bool := !(['"', '[', ']', '\x7b', '\x7d'].contains c)

theorem nestingFrom_neutral (h : isNeutral c = true) :
    nestingFrom .outside n (c :: rest) = nestingFrom .outside n rest := by
  have hc : c ≠ '"' ∧ c ≠ '[' ∧ c ≠ ']' ∧ c ≠ '\x7b' ∧ c ≠ '\x7d' := by
    simpa [isNeutral] using h
  obtain ⟨hquote, hopen, hclose, hopen', hclose'⟩ := hc
  simp only [nestingFrom, Standing.next, Standing.opened, hquote, hopen, hclose, hopen', hclose',
    if_false, or_self]
  exact max_eq_right (le_nestingFrom ..)

theorem nestingFrom_append (h : ∀ c ∈ taken, isNeutral c = true) :
    nestingFrom .outside n (taken ++ rest) = nestingFrom .outside n rest := by
  induction taken with
  | nil => rfl
  | cons c taken ih =>
      rw [List.cons_append, nestingFrom_neutral (h c (List.mem_cons_self ..))]
      exact ih fun d hd => h d (List.mem_cons_of_mem c hd)

theorem nestingFrom_skipBlanks (c : Cursor) :
    nestingFrom .outside n c.skipBlanks.rest = nestingFrom .outside n c.rest := by
  have hblank : ∀ d ∈ c.rest.takeWhile isBlank, isNeutral d = true := by
    intro d hd
    have hd := List.mem_takeWhile_imp hd
    simp only [isBlank, Bool.or_eq_true, beq_iff_eq] at hd
    obtain ((rfl | rfl) | rfl) | rfl := hd <;> decide
  calc nestingFrom .outside n (c.rest.dropWhile isBlank)
      = nestingFrom .outside n (c.rest.takeWhile isBlank ++ c.rest.dropWhile isBlank) :=
        (nestingFrom_append hblank).symm
    _ = nestingFrom .outside n c.rest := by rw [List.takeWhile_append_dropWhile]

end Nesting

/-- A reading that is good when it succeeds, and fails for its nesting under a condition only. -/
inductive Yields {α : Type} (good : α → Cursor → Prop) (deep : Prop) :
    Except Error (α × Cursor) → Prop
  | read {a : α} {next : Cursor} : good a next → Yields good deep (.ok (a, next))
  | malformed {problem : Problem} {position : ℕ} :
      Yields good deep (.error (.malformed problem position))
  | tooManyDigits {count : ℕ} : Yields good deep (.error (.tooManyDigits count))
  | tooDeep {container : String} : deep → Yields good deep (.error (.nestedTooDeep container))

theorem Yields.imp {α : Type} {good good' : α → Cursor → Prop} {deep deep' : Prop}
    {r : Except Error (α × Cursor)} (h : Yields good deep r) (hdeep : deep → deep')
    (hgood : ∀ a next, good a next → good' a next) : Yields good' deep' r := by
  cases h with
  | read h => exact .read (hgood _ _ h)
  | malformed => exact .malformed
  | tooManyDigits => exact .tooManyDigits
  | tooDeep h => exact .tooDeep (hdeep h)

theorem Yields.bind {α β : Type} {good : α → Cursor → Prop} {good' : β → Cursor → Prop}
    {deep deep' : Prop} {r : Except Error (α × Cursor)}
    {f : α × Cursor → Except Error (β × Cursor)} (h : Yields good deep r) (hdeep : deep → deep')
    (hf : ∀ a next, good a next → Yields good' deep' (f (a, next))) :
    Yields good' deep' (r >>= f) := by
  cases h with
  | read hgood => exact hf _ _ hgood
  | malformed => exact .malformed
  | tooManyDigits => exact .tooManyDigits
  | tooDeep h => exact .tooDeep (hdeep h)

section Texts

variable {n : ℕ}

theorem hexValue?_inside {c : Char} {v : ℕ} (h : hexValue? c = some v) :
    Standing.inside.next c = .inside := by
  have hquote : c ≠ '"' := by
    rintro rfl
    simp [hexValue?] at h
  have hslash : c ≠ '\\' := by
    rintro rfl
    simp [hexValue?] at h
  simp [Standing.next, hquote, hslash]

theorem nestingFrom_le_inside {c : Char} (h : Standing.inside.next c = .inside)
    (rest : List Char) : nestingFrom .inside n rest ≤ nestingFrom .inside n (c :: rest) := by
  have hle := nestingFrom_le_cons .inside n c rest
  rw [h] at hle
  exact hle

theorem hexUnit?_inside {digits more : List Char} {unit : ℕ}
    (h : hexUnit? digits = some (unit, more)) :
    nestingFrom .inside n more ≤ nestingFrom .inside n digits := by
  unfold hexUnit? at h
  split at h
  case h_2 => simp at h
  next a b c d e rest =>
    obtain ⟨va, ha, h⟩ := Option.bind_eq_some_iff.mp h
    obtain ⟨vb, hb, h⟩ := Option.bind_eq_some_iff.mp h
    obtain ⟨vc, hc, h⟩ := Option.bind_eq_some_iff.mp h
    obtain ⟨vd, hd, h⟩ := Option.bind_eq_some_iff.mp h
    obtain rfl : e :: rest = more := (Prod.mk.inj (Option.some.inj h)).2
    calc nestingFrom .inside n (e :: rest)
        ≤ nestingFrom .inside n (d :: e :: rest) := nestingFrom_le_inside (hexValue?_inside hd) _
      _ ≤ nestingFrom .inside n (c :: d :: e :: rest) :=
          nestingFrom_le_inside (hexValue?_inside hc) _
      _ ≤ nestingFrom .inside n (b :: c :: d :: e :: rest) :=
          nestingFrom_le_inside (hexValue?_inside hb) _
      _ ≤ nestingFrom .inside n (a :: b :: c :: d :: e :: rest) :=
          nestingFrom_le_inside (hexValue?_inside ha) _

theorem nestingFrom_le_escape (n : ℕ) (e : Char) (rest : List Char) :
    nestingFrom .inside n rest ≤ nestingFrom .inside n ('\\' :: e :: rest) :=
  (nestingFrom_le_cons .escaped n e rest).trans (nestingFrom_le_cons .inside n '\\' (e :: rest))

/-- What follows a part of a text is in the same text. -/
def StaysInside (cs : List Char) {α : Type} (_ : α) (next : Cursor) : Prop :=
  ∀ n, nestingFrom .inside n next.rest ≤ nestingFrom .inside n cs

theorem scanUnicode_yields (c : Cursor) (digits : List Char) :
    Yields (StaysInside digits) False (scanUnicode c digits) := by
  unfold scanUnicode
  split
  next => exact .malformed
  next unit more hmore =>
    have halone : StaysInside digits (unitChar unit) (c.advance 6 more) :=
      fun n => hexUnit?_inside hmore
    dsimp only
    -- The first half of a pair is read alone unless the second half follows it.
    split_ifs
    · split
      next tail =>
        split_ifs
        · exact .read halone
        · split
          next => exact .malformed
          next second rest hrest =>
            split_ifs
            · refine .read fun n => ?_
              calc nestingFrom .inside n rest
                  ≤ nestingFrom .inside n tail := hexUnit?_inside hrest
                _ ≤ nestingFrom .inside n ('\\' :: 'u' :: tail) := nestingFrom_le_escape n 'u' tail
                _ ≤ nestingFrom .inside n digits := hexUnit?_inside hmore
            · exact .read halone
      next => exact .read halone
    · exact .read halone

theorem scanEscape_yields (start : ℕ) (c : Cursor) (cs : List Char) :
    Yields (StaysInside ('\\' :: cs)) False (scanEscape start c cs) := by
  unfold scanEscape
  split
  next => exact .malformed
  next digits =>
    refine (scanUnicode_yields c digits).imp id fun x next h n => ?_
    exact (h n).trans (nestingFrom_le_escape n 'u' digits)
  next e rest _ =>
    split
    next x _ => exact .read fun n => nestingFrom_le_escape n e rest
    next => exact .malformed

theorem scanText_yields (start fuel : ℕ) (c : Cursor) (done : List Char) :
    Yields (fun _ next => ∀ n, nestingFrom .outside n next.rest ≤ nestingFrom .inside n c.rest)
      False (scanText start fuel c done) := by
  induction fuel generalizing c done with
  | zero => exact .malformed
  | succ fuel ih =>
      unfold scanText
      split
      next => exact .malformed
      next rest hrest =>
        rw [hrest]
        exact .read fun n => nestingFrom_le_cons .inside n '"' rest
      next rest hrest =>
        rw [hrest]
        refine (scanEscape_yields start c rest).bind id fun x next hnext => ?_
        exact (ih next (x :: done)).imp id fun s last h n => (h n).trans (hnext n)
      next x rest hquote hslash hrest =>
        split_ifs
        · exact .malformed
        · have hstays : Standing.inside.next x = .inside := by
            have hx : x ≠ '"' ∧ x ≠ '\\' := by
              constructor
              · rintro rfl
                exact hquote rfl
              · rintro rfl
                exact hslash rfl
            simp [Standing.next, hx]
          refine (ih (c.advance 1 rest) (x :: done)).imp id fun s last h n => (h n).trans ?_
          rw [hrest]
          exact nestingFrom_le_inside hstays rest

end Texts

section Numbers

/-- The characters from which numbers are made. -/
def isNumeric (c : Char) : Bool := isDecimalDigit c || ['-', '+', '.', 'e', 'E'].contains c

theorem isNeutral_of_isNumeric {c : Char} (h : isNumeric c = true) : isNeutral c = true := by
  by_contra hc
  have hspecial : c = '"' ∨ c = '[' ∨ c = ']' ∨ c = '\x7b' ∨ c = '\x7d' := by
    simpa [isNeutral, or_iff_not_imp_left] using hc
  obtain rfl | rfl | rfl | rfl | rfl := hspecial <;> revert h <;> decide

/-- The first characters, so many of them, are numeric. -/
def NumericUpTo (cs : List Char) (k : ℕ) : Prop := ∀ c ∈ cs.take k, isNumeric c = true

theorem NumericUpTo.add {cs : List Char} {j k : ℕ} (h : NumericUpTo cs j)
    (h' : NumericUpTo (cs.drop j) k) : NumericUpTo cs (j + k) := by
  intro c hc
  rw [List.take_add] at hc
  rcases List.mem_append.mp hc with hc | hc
  · exact h c hc
  · exact h' c hc

theorem numericUpTo_digits (cs : List Char) :
    NumericUpTo cs (cs.takeWhile isDecimalDigit).length := by
  intro c hc
  rw [← List.prefix_iff_eq_take.mp (List.takeWhile_prefix isDecimalDigit)] at hc
  have hdigit := List.mem_takeWhile_imp hc
  simp [isNumeric, hdigit]

theorem numericUpTo_head {cs : List Char} {p : Prop} [Decidable p]
    (h : p → ∃ c, cs.head? = some c ∧ isNumeric c = true) :
    NumericUpTo cs (if p then 1 else 0) := by
  intro d hd
  split_ifs at hd with hp
  · obtain ⟨c, hc, hnumeric⟩ := h hp
    obtain ⟨rest, rfl⟩ := List.head?_eq_some_iff.mp hc
    obtain rfl := List.mem_singleton.mp hd
    exact hnumeric
  · simp at hd

theorem numericUpTo_minus (cs : List Char) :
    NumericUpTo cs (if (cs.head? == some '-') = true then 1 else 0) :=
  numericUpTo_head fun h => ⟨'-', eq_of_beq h, by decide⟩

theorem numericUpTo_sign (cs : List Char) :
    NumericUpTo cs (if cs.head? = some '-' ∨ cs.head? = some '+' then 1 else 0) := by
  apply numericUpTo_head
  rintro (h | h)
  · exact ⟨'-', h, by decide⟩
  · exact ⟨'+', h, by decide⟩

theorem numericUpTo_one {c : Char} (cs : List Char) (h : isNumeric c = true) :
    NumericUpTo (c :: cs) 1 := by
  intro d hd
  obtain rfl := List.mem_singleton.mp hd
  exact h

theorem numericUpTo_wholeDigits (cs : List Char) : NumericUpTo cs (wholeDigits cs).length := by
  unfold wholeDigits
  split
  next => exact numericUpTo_one _ (by decide)
  next => exact numericUpTo_digits cs

/-- A point counts only with the digits behind it. -/
theorem numericUpTo_fractionDigits (cs : List Char) :
    NumericUpTo cs
      (if (fractionDigits cs).isEmpty then 0 else (fractionDigits cs).length + 1) := by
  split_ifs with hempty
  · intro c hc
    simp at hc
  · unfold fractionDigits at hempty ⊢
    split at hempty
    next rest =>
      rw [Nat.add_comm]
      exact (numericUpTo_one rest (by decide)).add (numericUpTo_digits rest)
    next => simp at hempty

theorem numericUpTo_scanExponent {cs : List Char} {exponent : ℤ} {taken : ℕ}
    (h : Numeral.scanExponent cs = some (exponent, taken)) : NumericUpTo cs taken := by
  unfold Numeral.scanExponent at h
  split at h
  next => simp at h
  next c rest =>
    split at h
    case isFalse => simp at h
    case isTrue hc =>
      dsimp only at h
      have hsigned := numericUpTo_sign rest
      generalize (if rest.head? = some '-' ∨ rest.head? = some '+' then 1 else 0) = signed
        at h hsigned
      split at h
      next => simp at h
      next =>
        obtain rfl := (Prod.mk.inj (Option.some.inj h)).2
        have hmark : isNumeric c = true := by
          rcases hc with rfl | rfl <;> decide
        rw [Nat.add_assoc]
        exact (numericUpTo_one rest hmark).add (hsigned.add (numericUpTo_digits _))

theorem isDecimalDigit_wholeDigits (cs : List Char) :
    ∀ c ∈ wholeDigits cs, isDecimalDigit c = true := by
  unfold wholeDigits
  split
  next => simp [isDecimalDigit_zero]
  next => exact fun c hc => List.mem_takeWhile_imp hc

/-- An integer that has been read has no more digits than a text of it may have. -/
theorem numberOf_cases (negative : Bool) {whole : List Char}
    (hwhole : ∀ c ∈ whole, isDecimalDigit c = true) (fraction : List Char) (exponent : ℤ)
    (isInteger : Bool) :
    (∃ count, numberOf negative whole fraction exponent isInteger =
        .error (.tooManyDigits count)) ∨
      ∃ n, numberOf negative whole fraction exponent isInteger = .ok n ∧
        (Value.number n).holdsLongInteger = false := by
  cases isInteger with
  | false => exact .inr ⟨_, rfl, rfl⟩
  | true =>
      by_cases hlong : Layout.digitLimit < whole.length
      · exact .inl ⟨whole.length, if_pos hlong⟩
      · refine .inr ⟨_, if_neg hlong, ?_⟩
        have hlt : digitsValue whole < 10 ^ Layout.digitLimit :=
          (digitsValue_lt hwhole).trans_le (Nat.pow_le_pow_right (by decide) (not_lt.mp hlong))
        have hsize : (if negative then -(digitsValue whole : ℤ) else digitsValue whole).natAbs =
            digitsValue whole := by
          split_ifs <;> omega
        unfold Value.holdsLongInteger Layout.isTooLong
        rw [hsize]
        exact decide_eq_false (not_le.mpr hlt)

theorem scanNumber_yields (c : Cursor) :
    Yields (fun n next => (Value.number n).holdsLongInteger = false ∧
        ∀ k, nestingFrom .outside k next.rest = nestingFrom .outside k c.rest)
      False (scanNumber c) := by
  have hleaves : ∀ {k : ℕ}, NumericUpTo c.rest k → ∀ m,
      nestingFrom .outside m (c.rest.drop k) = nestingFrom .outside m c.rest := by
    intro k hk m
    rw [← nestingFrom_append fun d hd => isNeutral_of_isNumeric (hk d hd), List.take_append_drop]
  have hsigned := numericUpTo_minus c.rest
  unfold scanNumber
  dsimp only
  generalize (if (c.rest.head? == some '-') = true then 1 else 0) = signed at hsigned ⊢
  have hwhole := hsigned.add (numericUpTo_wholeDigits (c.rest.drop signed))
  have hdigits := isDecimalDigit_wholeDigits (c.rest.drop signed)
  generalize wholeDigits (c.rest.drop signed) = whole at hwhole hdigits ⊢
  have hpointed := hwhole.add (numericUpTo_fractionDigits (c.rest.drop (signed + whole.length)))
  generalize fractionDigits (c.rest.drop (signed + whole.length)) = fraction at hpointed ⊢
  generalize signed + whole.length + (if fraction.isEmpty then 0 else fraction.length + 1) = size
    at hpointed ⊢
  split
  next => exact .malformed
  next =>
    split
    next exponent taken hexponent =>
      have htaken := hpointed.add (numericUpTo_scanExponent hexponent)
      rcases numberOf_cases (c.rest.head? == some '-') hdigits fraction exponent false with
        ⟨count, hn⟩ | ⟨n, hn, hshort⟩
      · rw [hn]
        exact .tooManyDigits
      · rw [hn]
        exact .read ⟨hshort, hleaves htaken⟩
    next =>
      rcases numberOf_cases (c.rest.head? == some '-') hdigits fraction 0 fraction.isEmpty with
        ⟨count, hn⟩ | ⟨n, hn, hshort⟩
      · rw [hn]
        exact .tooManyDigits
      · rw [hn]
        exact .read ⟨hshort, hleaves hpointed⟩

end Numbers

end VectorPath.Json
