import VectorPath.Proofs.Json.Spelling
import VectorPath.Proofs.Text.Newlines

/-!
# Line ends in JSON

A carriage return and a line feed are both blanks between tokens, and neither may stand in a text,
a number or a word. So the reader goes through a text and through the same text with unified line
ends in step: it reads the same value or fails on both, and for the depth of the nesting on both or
on neither. It is one induction over the two runs, each of which has fuel enough for its own text.
-/

namespace VectorPath.Json

open Text

/-- The container that nests too deeply, if that is the error. -/
def Error.container? : Error → Option String
  | .nestedTooDeep container => some container
  | _ => none

/-- The second cursor stands in the text with unified line ends where the first stands in the
text. -/
def Unified (c d : Cursor) : Prop := d.rest = unifyNewlines c.rest

/-- The same is read from a text and from the text with unified line ends, or reading both fails. -/
inductive Alike {α : Type} (cs : List Char) :
    Except Error (α × Cursor) → Except Error (α × Cursor) → Prop
  | read {a : α} {next next' : Cursor} :
      next.rest <:+ cs → Unified next next' → Alike cs (.ok (a, next)) (.ok (a, next'))
  | failed {e e' : Error} : e.container? = e'.container? → Alike cs (.error e) (.error e')

section Alike

variable {α β : Type} {cs later : List Char} {r r' : Except Error (α × Cursor)}

theorem Alike.weaken (h : Alike later r r') (hlater : later <:+ cs) : Alike cs r r' := by
  cases h with
  | read hnext hunified => exact .read (hnext.trans hlater) hunified
  | failed he => exact .failed he

theorem Alike.bind {f f' : α × Cursor → Except Error (β × Cursor)} (h : Alike later r r')
    (hf : ∀ a next next', next.rest <:+ later → Unified next next' →
      Alike cs (f (a, next)) (f' (a, next'))) : Alike cs (r >>= f) (r' >>= f') := by
  cases h with
  | read hnext hunified => exact hf _ _ _ hnext hunified
  | failed he => exact .failed he

theorem Unified.skipBlanks {c d : Cursor} (h : Unified c d) :
    Unified c.skipBlanks d.skipBlanks := by
  change d.rest.dropWhile isBlank = unifyNewlines (c.rest.dropWhile isBlank)
  rw [h, dropWhile_unifyNewlines rfl rfl]

theorem skipBlanks_suffix (c : Cursor) : c.skipBlanks.rest <:+ c.rest :=
  List.dropWhile_suffix isBlank

end Alike

/-- Fuel for both texts: two units for each character and some more. -/
structure Fueled (cs : List Char) (more fuel fuel' : ℕ) : Prop where
  text : 2 * cs.length + more ≤ fuel
  unified : 2 * (unifyNewlines cs).length + more ≤ fuel'

section Fuel

variable {cs later : List Char} {more fuel fuel' : ℕ}

theorem Fueled.anti {less : ℕ} (h : Fueled cs more fuel fuel') (hless : less ≤ more)
    (hlater : later <:+ cs) : Fueled later less fuel fuel' := by
  have htext := hlater.length_le
  have hunified := length_unifyNewlines_suffix hlater
  obtain ⟨h, h'⟩ := h
  exact ⟨by omega, by omega⟩

/-- A unit of what there is besides the characters. -/
theorem Fueled.pay (h : Fueled cs (more + 1) (fuel + 1) (fuel' + 1)) :
    Fueled cs more fuel fuel' :=
  ⟨by have := h.text; omega, by have := h.unified; omega⟩

/-- A character pays for a unit and leaves another one. -/
theorem Fueled.pass {c : Char} (h : Fueled (c :: cs) more (fuel + 1) (fuel' + 1)) (hc : c ≠ '\r') :
    Fueled cs (more + 1) fuel fuel' := by
  obtain ⟨h, h'⟩ := h
  rw [unifyNewlines_cons hc] at h'
  rw [List.length_cons] at h h'
  exact ⟨by omega, by omega⟩

theorem Fueled.eq_nil (h : Fueled cs 0 0 fuel') : cs = [] :=
  List.length_eq_zero_iff.mp (by have := h.text; omega)

theorem Fueled.exists_succ_of_cons {c : Char} (h : Fueled (c :: cs) more fuel fuel') :
    ∃ k k', fuel = k + 1 ∧ fuel' = k' + 1 := by
  have hpos := List.length_pos_iff.mpr (mt unifyNewlines_eq_nil.mp (List.cons_ne_nil c cs))
  obtain ⟨h, h'⟩ := h
  rw [List.length_cons] at h
  exact ⟨fuel - 1, fuel' - 1, by omega, by omega⟩

theorem Fueled.exists_succ (h : Fueled cs (more + 1) fuel fuel') :
    ∃ k k', fuel = k + 1 ∧ fuel' = k' + 1 := by
  obtain ⟨h, h'⟩ := h
  exact ⟨fuel - 1, fuel' - 1, by omega, by omega⟩

end Fuel

section Texts

theorem UnitText.not_mem {n : ℕ} {t : List Char} (h : UnitText n t) {c : Char}
    (hc : hexValue? c = none) : c ∉ t := by
  obtain ⟨h₁, h₂, h₃, h₄⟩ := h
  rintro hmem
  simp only [List.mem_cons, List.not_mem_nil, or_false] at hmem
  obtain rfl | rfl | rfl | rfl := hmem <;> simp_all

theorem hexUnit?_unified (cs : List Char) :
    hexUnit? (unifyNewlines cs) = (hexUnit? cs).map fun (n, more) => (n, unifyNewlines more) := by
  ext ⟨n, ds⟩
  simp only [Option.map_eq_some_iff, hexUnit?_eq_some_iff, Prod.exists, Prod.mk.injEq]
  constructor
  · rintro ⟨t, ht, hcs, hds⟩
    obtain ⟨more, rfl, rfl⟩ := unifyNewlines_eq_append hcs (ht.not_mem (by decide))
    exact ⟨n, more, ⟨t, ht, rfl, fun h => hds (unifyNewlines_eq_nil.mpr h)⟩, rfl, rfl⟩
  · rintro ⟨n, more, ⟨t, ht, rfl, hmore⟩, rfl, rfl⟩
    exact ⟨t, ht, unifyNewlines_append (ht.not_mem (by decide)),
      fun h => hmore (unifyNewlines_eq_nil.mp h)⟩

/-- The cursor stands at an escape that is no character. -/
def AtBrokenEscape (c : Cursor) : Prop :=
  ∃ digits, c.rest = '\\' :: 'u' :: digits ∧ hexUnit? digits = none

/-- An escape is read alike, or is refused in the text and read up to a broken one in the text with
unified line ends. -/
inductive AlikeEscape (cs : List Char) :
    Except Error (Char × Cursor) → Except Error (Char × Cursor) → Prop
  | alike {r r' : Except Error (Char × Cursor)} : Alike cs r r' → AlikeEscape cs r r'
  | broken {e : Error} {a : Char} {next : Cursor} :
      e.container? = none → AtBrokenEscape next → AlikeEscape cs (.error e) (.ok (a, next))

variable {start start' fuel fuel' : ℕ} {c d : Cursor} {done : List Char}

theorem scanText_broken (h : AtBrokenEscape c) :
    ∃ e, scanText start fuel c done = .error e ∧ e.container? = none := by
  obtain ⟨digits, hrest, hdigits⟩ := h
  cases fuel with
  | zero => exact ⟨_, rfl, rfl⟩
  | succ fuel =>
      refine ⟨.malformed .invalidUnicodeEscape (c.position + 1), ?_, rfl⟩
      simp [scanText, hrest, scanEscape, scanUnicode, hdigits, bind, Except.bind]

theorem hexUnit?_suffix {cs more : List Char} {n : ℕ} (h : hexUnit? cs = some (n, more)) :
    more <:+ cs := by
  obtain ⟨t, -, rfl, -⟩ := hexUnit?_eq_some_iff.mp h
  exact List.suffix_append t more

theorem hexUnit?_eq_none_of_short {cs : List Char} (h : cs.length < 5) : hexUnit? cs = none := by
  rcases hunit : hexUnit? cs with _ | ⟨n, more⟩
  · rfl
  · obtain ⟨t, ht, rfl, hmore⟩ := hexUnit?_eq_some_iff.mp hunit
    have := List.length_pos_iff.mpr hmore
    rw [List.length_append, ht.length] at h
    omega

/-- After the first half of a pair the text with unified line ends can be too short for the second
half when the text is not. There is no second half then in either of them. -/
theorem scanUnicode_pair_alike {digits tail : List Char} {unit : ℕ}
    (hdigits : hexUnit? digits = some (unit, '\\' :: 'u' :: tail))
    (hhigh : isHighUnit unit = true) :
    AlikeEscape digits (scanUnicode c digits) (scanUnicode d (unifyNewlines digits)) := by
  have hmore := hexUnit?_suffix hdigits
  have htail : unifyNewlines ('\\' :: 'u' :: tail) = '\\' :: 'u' :: unifyNewlines tail :=
    @unifyNewlines_append ['\\', 'u'] tail (by decide)
  have hunified : hexUnit? (unifyNewlines digits) =
      some (unit, '\\' :: 'u' :: unifyNewlines tail) := by
    rw [hexUnit?_unified, hdigits, ← htail]
    rfl
  have halone : AlikeEscape digits (.ok (unitChar unit, c.advance 6 ('\\' :: 'u' :: tail)))
      (.ok (unitChar unit, d.advance 6 ('\\' :: 'u' :: unifyNewlines tail))) :=
    .alike (.read hmore htail.symm)
  have hle := length_unifyNewlines_le tail
  rw [scanUnicode_pair hdigits hhigh, scanUnicode_pair hunified hhigh, hexUnit?_unified]
  by_cases hshort : tail.length < 5
  · rw [if_pos hshort, if_pos (by omega)]
    exact halone
  rw [if_neg hshort]
  by_cases hshort' : (unifyNewlines tail).length < 5
  · have hbroken := hexUnit?_eq_none_of_short hshort'
    have hnone := hbroken
    rw [hexUnit?_unified, Option.map_eq_none_iff] at hnone
    rw [if_pos hshort', hnone]
    exact .broken rfl ⟨unifyNewlines tail, rfl, hbroken⟩
  rw [if_neg hshort']
  rcases hsecond : hexUnit? tail with _ | ⟨second, rest⟩
  · exact .alike (.failed rfl)
  dsimp only [Option.map]
  split_ifs
  · have hrest := (hexUnit?_suffix hsecond).trans (List.suffix_append ['\\', 'u'] tail)
    exact .alike (.read (hrest.trans hmore) rfl)
  · exact halone

theorem scanUnicode_alike (c d : Cursor) (digits : List Char) :
    AlikeEscape digits (scanUnicode c digits) (scanUnicode d (unifyNewlines digits)) := by
  have hunified := hexUnit?_unified digits
  rcases hdigits : hexUnit? digits with _ | ⟨unit, more⟩ <;> rw [hdigits] at hunified
  · unfold scanUnicode
    rw [hdigits, hunified]
    exact .alike (.failed rfl)
  by_cases hpair : isHighUnit unit = true ∧ ∃ tail, more = '\\' :: 'u' :: tail
  · obtain ⟨hhigh, tail, rfl⟩ := hpair
    exact scanUnicode_pair_alike hdigits hhigh
  · have hpair' : isHighUnit unit = true → ∀ tail, unifyNewlines more ≠ '\\' :: 'u' :: tail := by
      intro hhigh tail htail
      obtain ⟨rest, rfl, -⟩ := @unifyNewlines_eq_append more ['\\', 'u'] tail htail (by decide)
      exact hpair ⟨hhigh, rest, rfl⟩
    rw [scanUnicode_alone hdigits fun hhigh tail htail => hpair ⟨hhigh, tail, htail⟩,
      scanUnicode_alone hunified hpair']
    exact .alike (.read (hexUnit?_suffix hdigits) rfl)

theorem AlikeEscape.weaken {cs later : List Char} {r r' : Except Error (Char × Cursor)}
    (h : AlikeEscape later r r') (hlater : later <:+ cs) : AlikeEscape cs r r' := by
  cases h with
  | alike h => exact .alike (h.weaken hlater)
  | broken he hnext => exact .broken he hnext

theorem scanEscape_alike (start start' : ℕ) (c d : Cursor) (cs : List Char) :
    AlikeEscape cs (scanEscape start c cs) (scanEscape start' d (unifyNewlines cs)) := by
  rcases cs with _ | ⟨e, rest⟩
  · exact .alike (.failed rfl)
  by_cases hreturn : e = '\r'
  · subst hreturn
    obtain ⟨ds, hds, -⟩ := unifyNewlines_return rest
    rw [hds, scanEscape_invalid (by decide) rfl, scanEscape_invalid (by decide) rfl]
    exact .alike (.failed rfl)
  rw [unifyNewlines_cons hreturn]
  by_cases hunit : e = 'u'
  · subst hunit
    exact (scanUnicode_alike c d rest).weaken (List.suffix_cons 'u' rest)
  · rcases he : escapeValue? e with _ | a
    · rw [scanEscape_invalid hunit he, scanEscape_invalid hunit he]
      exact .alike (.failed rfl)
    · rw [scanEscape_letter he, scanEscape_letter he]
      exact .alike (.read (List.suffix_cons e rest) rfl)

theorem AlikeEscape.bind {α : Type} {cs later : List Char} {r r' : Except Error (Char × Cursor)}
    {f f' : Char × Cursor → Except Error (α × Cursor)} (h : AlikeEscape later r r')
    (hf : ∀ a next next', next.rest <:+ later → Unified next next' →
      Alike cs (f (a, next)) (f' (a, next')))
    (hbroken : ∀ a next, AtBrokenEscape next →
      ∃ e, f' (a, next) = .error e ∧ e.container? = none) :
    Alike cs (r >>= f) (r' >>= f') := by
  cases h with
  | alike h => exact h.bind hf
  | broken he hnext =>
      obtain ⟨e', hf', he'⟩ := hbroken _ _ hnext
      change Alike cs (.error _) (f' _)
      rw [hf']
      exact .failed (he.trans he'.symm)

theorem unifyNewlines_control {e : Char} (he : e.toNat < 0x20) (rest : List Char) :
    ∃ e' ds, unifyNewlines (e :: rest) = e' :: ds ∧ e'.toNat < 0x20 := by
  by_cases hreturn : e = '\r'
  · subst hreturn
    obtain ⟨ds, hds, -⟩ := unifyNewlines_return rest
    exact ⟨'\n', ds, hds, by decide⟩
  · exact ⟨e, _, unifyNewlines_cons hreturn rest, he⟩

theorem scanText_alike (h : Unified c d) (hfuel : Fueled c.rest 0 fuel fuel') :
    Alike c.rest (scanText start fuel c done) (scanText start' fuel' d done) := by
  induction fuel generalizing fuel' c d done with
  | zero =>
      have hnil := hfuel.eq_nil
      rw [scanText_nil hnil, scanText_nil (h.trans (unifyNewlines_eq_nil.mpr hnil))]
      exact .failed rfl
  | succ fuel ih =>
      obtain ⟨position, cs⟩ := c
      obtain ⟨position', ds⟩ := d
      obtain rfl : ds = unifyNewlines cs := h
      rcases cs with _ | ⟨e, rest⟩
      · rw [scanText_nil rfl, scanText_nil rfl]
        exact .failed rfl
      obtain ⟨-, fuel', -, rfl⟩ := hfuel.exists_succ_of_cons
      by_cases hcontrol : e.toNat < 0x20
      · obtain ⟨e', ds, hds, hcontrol'⟩ := unifyNewlines_control hcontrol rest
        obtain ⟨problem, hproblem⟩ := @scanText_control start fuel position done rest e hcontrol
        obtain ⟨problem', hproblem'⟩ :=
          @scanText_control start' fuel' position' done ds e' hcontrol'
        rw [hds, hproblem, hproblem']
        exact .failed rfl
      have hreturn : e ≠ '\r' := by
        rintro rfl
        exact hcontrol (by decide)
      have hpass := hfuel.pass hreturn
      have hrest := List.suffix_cons e rest
      rw [unifyNewlines_cons hreturn]
      by_cases hquote : e = '"'
      · subst hquote
        simp only [scanText]
        exact .read hrest rfl
      by_cases hslash : e = '\\'
      · subst hslash
        rw [scanText_escape, scanText_escape]
        refine (scanEscape_alike start start' _ _ rest).bind (fun a next next' hnext hunified => ?_)
          fun a next => scanText_broken
        exact (ih hunified (hpass.anti (Nat.zero_le 1) hnext)).weaken (hnext.trans hrest)
      · have hnext : Unified ⟨position + 1, rest⟩ ⟨position' + 1, unifyNewlines rest⟩ := rfl
        rw [scanText_plain hcontrol hquote hslash, scanText_plain hcontrol hquote hslash]
        exact (ih hnext (hpass.anti (Nat.zero_le 1) List.suffix_rfl)).weaken hrest

theorem textAfterQuote_alike (h : Unified c d) (hfuel : Fueled c.rest 0 fuel fuel') :
    Alike c.rest (textAfterQuote fuel c) (textAfterQuote fuel' d) :=
  scanText_alike h hfuel

end Texts

section Numbers

variable {cs : List Char}

theorem drop_unified {k : ℕ} (h : NumericUpTo cs k) :
    (unifyNewlines cs).drop k = unifyNewlines (cs.drop k) := by
  exact drop_unifyNewlines fun hreturn => absurd (h _ hreturn) (by decide)

theorem wholeDigits_of_head (h : cs.head? ≠ some '0') :
    wholeDigits cs = cs.takeWhile isDecimalDigit := by
  unfold wholeDigits
  split
  next => exact absurd rfl h
  next => rfl

theorem wholeDigits_unified (cs : List Char) : wholeDigits (unifyNewlines cs) = wholeDigits cs := by
  by_cases hzero : cs.head? = some '0'
  · obtain ⟨rest, rfl⟩ := List.head?_eq_some_iff.mp hzero
    rw [unifyNewlines_cons (by decide)]
    rfl
  · have hzero' := mt (head?_unifyNewlines (by decide) (by decide) cs).mp hzero
    rw [wholeDigits_of_head hzero, wholeDigits_of_head hzero',
      takeWhile_unifyNewlines (by decide) (by decide)]

theorem fractionDigits_of_head (h : cs.head? ≠ some '.') : fractionDigits cs = [] := by
  unfold fractionDigits
  split
  next => exact absurd rfl h
  next => rfl

theorem fractionDigits_unified (cs : List Char) :
    fractionDigits (unifyNewlines cs) = fractionDigits cs := by
  by_cases hpoint : cs.head? = some '.'
  · obtain ⟨rest, rfl⟩ := List.head?_eq_some_iff.mp hpoint
    rw [unifyNewlines_cons (by decide)]
    exact takeWhile_unifyNewlines (by decide) (by decide) rest
  · have hpoint' := mt (head?_unifyNewlines (by decide) (by decide) cs).mp hpoint
    rw [fractionDigits_of_head hpoint, fractionDigits_of_head hpoint']

theorem scanExponent_of_head {c : Char} {rest : List Char} (h : ¬ (c = 'e' ∨ c = 'E')) :
    Numeral.scanExponent (c :: rest) = none := if_neg h

theorem scanExponent_unified (cs : List Char) :
    Numeral.scanExponent (unifyNewlines cs) = Numeral.scanExponent cs := by
  rcases cs with _ | ⟨c, rest⟩
  · rfl
  by_cases hreturn : c = '\r'
  · subst hreturn
    obtain ⟨ds, hds, -⟩ := unifyNewlines_return rest
    rw [hds, scanExponent_of_head (by decide), scanExponent_of_head (by decide)]
  rw [unifyNewlines_cons hreturn]
  unfold Numeral.scanExponent
  have hminus := head?_unifyNewlines (c := '-') (by decide) (by decide) rest
  have hplus := head?_unifyNewlines (c := '+') (by decide) (by decide) rest
  simp only [hminus, hplus, drop_unified (numericUpTo_sign rest),
    takeWhile_unifyNewlines (p := isDecimalDigit) (by decide) (by decide)]

theorem scanNumber_alike {c d : Cursor} (h : Unified c d) :
    Alike c.rest (scanNumber c) (scanNumber d) := by
  obtain ⟨position, cs⟩ := c
  obtain ⟨position', ds⟩ := d
  obtain rfl : ds = unifyNewlines cs := h
  have hminus : ((unifyNewlines cs).head? == some '-') = (cs.head? == some '-') := by
    rw [Bool.eq_iff_iff, beq_iff_eq, beq_iff_eq]
    exact head?_unifyNewlines (by decide) (by decide) cs
  have hsigned := numericUpTo_minus cs
  unfold scanNumber
  dsimp only
  rw [hminus]
  generalize (cs.head? == some '-') = negative at hsigned ⊢
  generalize (if negative = true then 1 else 0) = signed at hsigned ⊢
  rw [drop_unified hsigned, wholeDigits_unified]
  have hwhole := hsigned.add (numericUpTo_wholeDigits (cs.drop signed))
  generalize wholeDigits (cs.drop signed) = whole at hwhole ⊢
  rw [drop_unified hwhole, fractionDigits_unified]
  have hpointed := hwhole.add (numericUpTo_fractionDigits (cs.drop (signed + whole.length)))
  generalize fractionDigits (cs.drop (signed + whole.length)) = fraction at hpointed ⊢
  generalize signed + whole.length + (if fraction.isEmpty then 0 else fraction.length + 1) = size
    at hpointed ⊢
  rw [drop_unified hpointed, scanExponent_unified]
  split_ifs
  · exact .failed rfl
  rcases hexponent : Numeral.scanExponent (cs.drop size) with _ | ⟨exponent, taken⟩
  · rcases numberOf negative whole fraction 0 fraction.isEmpty with e | n
    · exact .failed rfl
    · exact .read (List.drop_suffix size cs) rfl
  · have htaken := hpointed.add (numericUpTo_scanExponent hexponent)
    dsimp only
    rw [drop_unified htaken]
    rcases numberOf negative whole fraction exponent false with e | n
    · exact .failed rfl
    · exact .read (List.drop_suffix (size + taken) cs) rfl

end Numbers

/-- The reader goes alike through both texts with so much fuel for the first. -/
structure AlikeAt (fuel : ℕ) : Prop where
  value : ∀ {fuel' depth c d}, Unified c d → Fueled c.rest 0 fuel fuel' →
    Alike c.rest (scanValue fuel depth c) (scanValue fuel' depth d)
  items : ∀ {fuel' depth c d done}, Unified c d → Fueled c.rest 1 fuel fuel' →
    Alike c.rest (scanItems fuel depth c done) (scanItems fuel' depth d done)
  members : ∀ {fuel' depth c d done}, Unified c d → Fueled c.rest 1 fuel fuel' →
    Alike c.rest (scanMembers fuel depth c done) (scanMembers fuel' depth d done)

section Values

variable {fuel fuel' depth : ℕ} {c d : Cursor}

/-- A mark stands at both cursors or at neither. -/
theorem Unified.mark (h : Unified c d) {mark : Char} (hreturn : mark ≠ '\r') (hfeed : mark ≠ '\n') :
    (∃ rest position position', c = ⟨position, mark :: rest⟩ ∧
        d = ⟨position', mark :: unifyNewlines rest⟩) ∨
      (∀ rest, c.rest ≠ mark :: rest) ∧ ∀ rest, d.rest ≠ mark :: rest := by
  obtain ⟨position, cs⟩ := c
  obtain ⟨position', ds⟩ := d
  obtain rfl : ds = unifyNewlines cs := h
  by_cases hmark : ∃ rest, cs = mark :: rest
  · obtain ⟨rest, rfl⟩ := hmark
    exact .inl ⟨rest, position, position', rfl, by rw [unifyNewlines_cons hreturn]⟩
  · refine .inr ⟨fun rest hrest => hmark ⟨rest, hrest⟩, fun rest hrest => ?_⟩
    obtain ⟨more, hmore, -⟩ := unifyNewlines_eq_cons hrest hfeed
    exact hmark ⟨more, hmore⟩

/-- What the reader distinguishes in the text it distinguishes in the other. -/
theorem prefix_unifyNewlines {word cs : List Char} (hword : '\n' ∉ word)
    (h : word <+: unifyNewlines cs) : word <+: cs := by
  obtain ⟨ds, hds⟩ := h
  obtain ⟨rest, rfl, -⟩ := unifyNewlines_eq_append hds.symm hword
  exact List.prefix_append word rest

theorem newline_not_mem_openers : ∀ word ∈ openers, '\r' ∉ word ∧ '\n' ∉ word := by
  decide

section Containers

variable {close : Char} {v : Value} {go go' : Cursor → Except Error (Value × Cursor)}

theorem afterBracket_alike (hreturn : close ≠ '\r') (hfeed : close ≠ '\n') (hunified : Unified c d)
    (hgo : Alike c.rest (go c) (go' d)) :
    Alike c.rest (afterBracket close v go c) (afterBracket close v go' d) := by
  rcases hunified.mark hreturn hfeed with ⟨rest, position, position', rfl, rfl⟩ | ⟨hc, hd⟩
  · rw [afterBracket_close, afterBracket_close]
    exact .read (List.suffix_cons close rest) rfl
  · rw [afterBracket_go hc, afterBracket_go hd]
    exact hgo

theorem afterPart_alike (hreturn : close ≠ '\r') (hfeed : close ≠ '\n') (hunified : Unified c d)
    (hfuel : Fueled c.rest 1 (fuel + 1) (fuel' + 1))
    (hgo : ∀ {c d}, Unified c d → Fueled c.rest 1 fuel fuel' → Alike c.rest (go c) (go' d)) :
    Alike c.rest (afterPart close v go c) (afterPart close v go' d) := by
  rcases hunified.mark hreturn hfeed with ⟨rest, position, position', rfl, rfl⟩ | ⟨hc, hd⟩
  · rw [afterPart_close, afterPart_close]
    exact .read (List.suffix_cons close rest) rfl
  rcases @Unified.mark c d hunified ',' (by decide) (by decide) with
    ⟨rest, position, position', rfl, rfl⟩ | ⟨hc', hd'⟩
  · have hstart : Unified ⟨position + 1, rest⟩ ⟨position' + 1, unifyNewlines rest⟩ := rfl
    have hskip := skipBlanks_suffix ⟨position + 1, rest⟩
    have hcomma : close ≠ ',' := by
      rintro rfl
      exact hc rest rfl
    rw [afterPart_comma hcomma, afterPart_comma hcomma]
    exact (hgo hstart.skipBlanks ((hfuel.pass (by decide)).anti (by decide) hskip)).weaken
      (hskip.trans (List.suffix_cons ',' rest))
  · rw [afterPart_fail hc hc', afterPart_fail hd hd']
    exact .failed rfl

end Containers

theorem scanValue_opener_alike (h : AlikeAt fuel) {word rest : List Char} {position position' : ℕ}
    (hword : word ∈ openers) (hfuel : Fueled (word ++ rest) 0 (fuel + 1) (fuel' + 1)) :
    Alike (word ++ rest) (scanValue (fuel + 1) depth ⟨position, word ++ rest⟩)
      (scanValue (fuel' + 1) depth ⟨position', word ++ unifyNewlines rest⟩) := by
  have hrest := List.suffix_append word rest
  have hstart : Unified ⟨position + 1, rest⟩ ⟨position' + 1, unifyNewlines rest⟩ := rfl
  have hskip := skipBlanks_suffix ⟨position + 1, rest⟩
  simp only [openers, List.mem_cons, List.not_mem_nil, or_false] at hword
  -- A text, an object, an array and six words.
  obtain rfl | rfl | rfl | rfl | rfl | rfl | rfl | rfl | rfl := hword
  · have hpass := (hfuel.pass (by decide)).anti (Nat.zero_le 1) List.suffix_rfl
    refine ((textAfterQuote_alike hstart hpass).weaken hrest).bind ?_
    exact fun s next next' hnext hunified => .read hnext hunified
  · have hpass := (hfuel.pass (by decide)).anti le_rfl hskip
    cases depth with
    | zero => exact .failed rfl
    | succ depth =>
        rw [List.singleton_append, List.singleton_append, scanValue_record, scanValue_record]
        exact (afterBracket_alike (by decide) (by decide) hstart.skipBlanks
          (h.members hstart.skipBlanks hpass)).weaken (hskip.trans hrest)
  · have hpass := (hfuel.pass (by decide)).anti le_rfl hskip
    cases depth with
    | zero => exact .failed rfl
    | succ depth =>
        rw [List.singleton_append, List.singleton_append, scanValue_list, scanValue_list]
        exact (afterBracket_alike (by decide) (by decide) hstart.skipBlanks
          (h.items hstart.skipBlanks hpass)).weaken (hskip.trans hrest)
  all_goals exact .read hrest rfl

theorem scanValue_succ_alike (h : AlikeAt fuel) (hunified : Unified c d)
    (hfuel : Fueled c.rest 0 (fuel + 1) fuel') :
    Alike c.rest (scanValue (fuel + 1) depth c) (scanValue fuel' depth d) := by
  obtain ⟨position, cs⟩ := c
  obtain ⟨position', ds⟩ := d
  obtain rfl : ds = unifyNewlines cs := hunified
  by_cases hnil : cs = []
  · subst hnil
    rw [scanValue_nil rfl, scanValue_nil rfl]
    exact .failed rfl
  obtain ⟨fuel', rfl⟩ : ∃ k, fuel' = k + 1 := by
    obtain ⟨e, rest, rfl⟩ := List.exists_cons_of_ne_nil hnil
    obtain ⟨-, k, -, hk⟩ := hfuel.exists_succ_of_cons
    exact ⟨k, hk⟩
  by_cases hopen : ∃ word ∈ openers, word <+: cs
  · obtain ⟨word, hword, rest, rfl⟩ := hopen
    rw [unifyNewlines_append (newline_not_mem_openers word hword).1]
    exact scanValue_opener_alike h hword hfuel
  · have hcs : ∀ word ∈ openers, ¬ word <+: cs := fun word hword h => hopen ⟨word, hword, h⟩
    have hds : ∀ word ∈ openers, ¬ word <+: unifyNewlines cs := fun word hword hprefix =>
      hcs word hword (prefix_unifyNewlines (newline_not_mem_openers word hword).2 hprefix)
    have hstart : Unified ⟨position, cs⟩ ⟨position', unifyNewlines cs⟩ := rfl
    rw [scanValue_number hcs, scanValue_number hds]
    exact (scanNumber_alike hstart).bind fun n next next' hnext hunified => .read hnext hunified

theorem scanItems_succ_alike (h : AlikeAt fuel) {done : List Value} (hunified : Unified c d)
    (hfuel : Fueled c.rest 1 (fuel + 1) (fuel' + 1)) :
    Alike c.rest (scanItems (fuel + 1) depth c done) (scanItems (fuel' + 1) depth d done) := by
  rw [scanItems_succ, scanItems_succ]
  refine (h.value hunified hfuel.pay).bind fun v after after' hafter hunified => ?_
  have hskip := (skipBlanks_suffix after).trans hafter
  exact (afterPart_alike (by decide) (by decide) hunified.skipBlanks (hfuel.anti le_rfl hskip)
    fun hunified hfuel => h.items hunified hfuel).weaken hskip

section Members

variable {done : List (String × Value)} {name : String}

theorem afterName_alike (h : AlikeAt fuel) (hunified : Unified c d)
    (hfuel : Fueled c.rest 1 (fuel + 1) (fuel' + 1)) :
    Alike c.rest (afterName fuel depth name done c) (afterName fuel' depth name done d) := by
  rcases @Unified.mark c d hunified ':' (by decide) (by decide) with
    ⟨rest, position, position', rfl, rfl⟩ | ⟨hc, hd⟩
  · have hstart : Unified ⟨position + 1, rest⟩ ⟨position' + 1, unifyNewlines rest⟩ := rfl
    have hskip := (skipBlanks_suffix ⟨position + 1, rest⟩).trans (List.suffix_cons ':' rest)
    rw [afterName_colon, afterName_colon]
    refine (h.value hstart.skipBlanks (hfuel.pay.anti le_rfl hskip)).bind
      fun v after after' hafter hunified => ?_
    have hlater := (skipBlanks_suffix after).trans (hafter.trans hskip)
    exact (afterPart_alike (by decide) (by decide) hunified.skipBlanks (hfuel.anti le_rfl hlater)
      fun hunified hfuel => h.members hunified hfuel).weaken hlater
  · rw [afterName_fail hc, afterName_fail hd]
    exact .failed rfl

theorem scanMembers_succ_alike (h : AlikeAt fuel) (hunified : Unified c d)
    (hfuel : Fueled c.rest 1 (fuel + 1) (fuel' + 1)) :
    Alike c.rest (scanMembers (fuel + 1) depth c done) (scanMembers (fuel' + 1) depth d done) := by
  rcases @Unified.mark c d hunified '"' (by decide) (by decide) with
    ⟨rest, position, position', rfl, rfl⟩ | ⟨hc, hd⟩
  · have hstart : Unified ⟨position + 1, rest⟩ ⟨position' + 1, unifyNewlines rest⟩ := rfl
    have hpass := (hfuel.pass (by decide)).anti (Nat.zero_le 2) List.suffix_rfl
    rw [scanMembers_name, scanMembers_name]
    refine (textAfterQuote_alike hstart hpass).bind fun name after after' hafter hunified => ?_
    have hlater := (skipBlanks_suffix after).trans (hafter.trans (List.suffix_cons '"' rest))
    exact (afterName_alike h hunified.skipBlanks (hfuel.anti le_rfl hlater)).weaken hlater
  · rw [scanMembers_fail hc, scanMembers_fail hd]
    exact .failed rfl

end Members

theorem alikeAt (fuel : ℕ) : AlikeAt fuel := by
  induction fuel with
  | zero =>
      refine ⟨fun {_ _ c _} hunified hfuel => ?_, fun _ hfuel => ?_, fun _ hfuel => ?_⟩
      · have hnil : c.rest = [] := hfuel.eq_nil
        rw [scanValue_nil hnil, scanValue_nil (hunified.trans (unifyNewlines_eq_nil.mpr hnil))]
        exact .failed rfl
      · exact absurd hfuel.text (by omega)
      · exact absurd hfuel.text (by omega)
  | succ fuel ih =>
      refine ⟨scanValue_succ_alike ih, fun hunified hfuel => ?_, fun hunified hfuel => ?_⟩
      · obtain ⟨-, fuel', -, rfl⟩ := hfuel.exists_succ
        exact scanItems_succ_alike ih hunified hfuel
      · obtain ⟨-, fuel', -, rfl⟩ := hfuel.exists_succ
        exact scanMembers_succ_alike ih hunified hfuel

end Values

/-- The same value is read from both texts, or reading both fails, for the nesting of a container
on both or on neither. -/
inductive ReadAlike : Except Error Value → Except Error Value → Prop
  | read (v : Value) : ReadAlike (.ok v) (.ok v)
  | failed {e e' : Error} : e.container? = e'.container? → ReadAlike (.error e) (.error e')

section Parse

variable {text : List Char}

/-- What a text ends with after its value. -/
def afterValue (v : Value) (last : Cursor) : Except Error Value :=
  if last.rest.isEmpty then .ok v else last.fail .extraData

theorem afterValue_alike (v : Value) {c d : Cursor} (h : Unified c d) :
    ReadAlike (afterValue v c) (afterValue v d) := by
  have hend : d.rest.isEmpty = c.rest.isEmpty := by
    rw [Bool.eq_iff_iff, List.isEmpty_iff, List.isEmpty_iff, h, unifyNewlines_eq_nil]
  unfold afterValue
  rw [hend]
  split_ifs
  · exact .read v
  · exact .failed rfl

theorem parse_of_start [Depth] (h : ∀ rest, text ≠ '\ufeff' :: rest) :
    parse text = scanValue (2 * text.length + 2) Depth.brackets (Cursor.mk 0 text).skipBlanks >>=
      fun (v, after) => afterValue v after.skipBlanks := by
  unfold parse
  split
  next rest => exact absurd rfl (h rest)
  next => rfl

theorem parse_alike [Depth] (text : List Char) :
    ReadAlike (parse text) (parse (unifyNewlines text)) := by
  have hstart : Unified ⟨0, text⟩ ⟨0, unifyNewlines text⟩ := rfl
  rcases @Unified.mark _ _ hstart '\ufeff' (by decide) (by decide) with
    ⟨rest, position, position', hc, hd⟩ | ⟨hc, hd⟩
  · obtain rfl : text = '\ufeff' :: rest := (Cursor.mk.inj hc).2
    rw [unifyNewlines_cons (by decide)]
    exact .failed rfl
  have hfuel : Fueled text 0 (2 * text.length + 2) (2 * (unifyNewlines text).length + 2) :=
    ⟨by omega, by omega⟩
  have hvalue := @AlikeAt.value _ (alikeAt (2 * text.length + 2)) _ Depth.brackets _ _
    hstart.skipBlanks (hfuel.anti le_rfl (skipBlanks_suffix ⟨0, text⟩))
  rw [parse_of_start hc, parse_of_start hd]
  generalize scanValue (2 * text.length + 2) Depth.brackets _ = r at hvalue ⊢
  generalize scanValue (2 * (unifyNewlines text).length + 2) Depth.brackets _ = r' at hvalue ⊢
  cases hvalue with
  | @read v next next' _ hunified =>
      exact afterValue_alike v hunified.skipBlanks
  | failed he => exact .failed he

end Parse

end VectorPath.Json
