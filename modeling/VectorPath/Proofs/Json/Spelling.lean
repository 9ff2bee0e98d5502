import VectorPath.Proofs.Json.Numbers
import VectorPath.Proofs.Json.Scanning
import VectorPath.Proofs.Json.Steps

/-!
# The spellings of a value

A value has many texts in JSON: blanks may stand between the tokens, and a character of a text may
be escaped in several ways. The layout is described over a parameter for the parts of a container,
so that it can be followed level by level. Every spelling of a value, however it is laid out, is
read as the value, if it nests no deeper than the reader goes and holds no integer with more digits
than the reader takes.
-/

namespace VectorPath.Json

def Blanks (cs : List Char) : Prop := ∀ c ∈ cs, isBlank c = true

instance (cs : List Char) : Decidable (Blanks cs) :=
  decidable_of_iff (cs.all isBlank = true) List.all_eq_true

/-- A character that can stand between quotes as it is. -/
def isPlain (c : Char) : Bool := 0x20 ≤ c.toNat && c != '"' && c != '\\'

/-- Four hexadecimal digits of a UTF-16 unit. -/
inductive UnitText : ℕ → List Char → Prop
  | mk {a b c d : Char} {w x y z : ℕ} :
      hexValue? a = some w → hexValue? b = some x → hexValue? c = some y → hexValue? d = some z →
        UnitText (w * 0x1000 + x * 0x100 + y * 0x10 + z) [a, b, c, d]

/-- A character between quotes: itself, or an escape by a letter, by its unit or by a pair of
units. -/
inductive CharText : Char → List Char → Prop
  | plain {c : Char} : isPlain c = true → CharText c [c]
  | escape {c e : Char} : escapeValue? e = some c → CharText c ['\\', e]
  | unit {c : Char} {t : List Char} : UnitText c.toNat t → CharText c ('\\' :: 'u' :: t)
  | pair {high low : ℕ} {t u : List Char} :
      UnitText high t → UnitText low u → isHighUnit high = true → isLowUnit low = true →
        CharText (pairChar high low) ('\\' :: 'u' :: (t ++ '\\' :: 'u' :: u))

inductive CharsText : List Char → List Char → Prop
  | nil : CharsText [] []
  | cons {c : Char} {cs t u : List Char} :
      CharText c t → CharsText cs u → CharsText (c :: cs) (t ++ u)

inductive QuotedText : String → List Char → Prop
  | mk {s : String} {t : List Char} : CharsText s.toList t → QuotedText s ('"' :: (t ++ ['"']))

inductive ScalarText : Value → List Char → Prop
  | null : ScalarText .null ['n', 'u', 'l', 'l']
  | true : ScalarText (.bool true) ['t', 'r', 'u', 'e']
  | false : ScalarText (.bool false) ['f', 'a', 'l', 's', 'e']
  | number (n : Number) : ScalarText (.number n) n.jsonText
  | text {s : String} {t : List Char} : QuotedText s t → ScalarText (.text s) t

section Layout

variable {α : Type}

inductive Padded (R : α → List Char → Prop) : α → List Char → Prop
  | mk {x : α} {t : List Char} (before after : List Char) :
      Blanks before → Blanks after → R x t → Padded R x (before ++ (t ++ after))

inductive Separated (R : α → List Char → Prop) : List α → List Char → Prop
  | single {x : α} {t : List Char} : R x t → Separated R [x] t
  | cons {x : α} {xs : List α} {t u : List Char} :
      R x t → Separated R xs u → Separated R (x :: xs) (t ++ ',' :: u)

variable (S : Value → List Char → Prop)

inductive MemberText : String × Value → List Char → Prop
  | mk {name : String} {v : Value} {n t : List Char} (before after : List Char) :
      Blanks before → Blanks after → QuotedText name n → S v t →
        MemberText (name, v) (n ++ (before ++ ':' :: (after ++ t)))

/-- An array or an object of parts with the given spellings; no two members share a name. -/
inductive ContainerText : Value → List Char → Prop
  | emptyList {b : List Char} : Blanks b → ContainerText (.list []) ('[' :: (b ++ [']']))
  | list {items : List Value} {t : List Char} :
      Separated (Padded S) items t → ContainerText (.list items) ('[' :: (t ++ [']']))
  | emptyRecord {b : List Char} :
      Blanks b → ContainerText (.record []) ('\x7b' :: (b ++ ['\x7d']))
  | record {entries : List (String × Value)} {t : List Char} :
      (entries.map Prod.fst).Nodup → Separated (Padded (MemberText S)) entries t →
        ContainerText (.record entries) ('\x7b' :: (t ++ ['\x7d']))

end Layout

/-- A text of a value with so many levels of containers. -/
def Spells : ℕ → Value → List Char → Prop
  | 0, v, t => ScalarText v t
  | depth + 1, v, t => ScalarText v t ∨ ContainerText (Spells depth) v t

section Texts

variable {start fuel position : ℕ} {done more rest t : List Char}

theorem hexUnit?_append {n : ℕ} (h : UnitText n t) (hmore : more ≠ []) :
    hexUnit? (t ++ more) = some (n, more) := by
  obtain ⟨ha, hb, hc, hd⟩ := h
  obtain ⟨e, rest, rfl⟩ := List.exists_cons_of_ne_nil hmore
  simp [hexUnit?, ha, hb, hc, hd]

theorem hexUnit?_eq_some_iff {n : ℕ} {cs : List Char} :
    hexUnit? cs = some (n, more) ↔ ∃ t, UnitText n t ∧ cs = t ++ more ∧ more ≠ [] := by
  constructor
  · intro h
    unfold hexUnit? at h
    split at h
    case h_2 => simp at h
    next a b c d e rest =>
      obtain ⟨va, ha, h⟩ := Option.bind_eq_some_iff.mp h
      obtain ⟨vb, hb, h⟩ := Option.bind_eq_some_iff.mp h
      obtain ⟨vc, hc, h⟩ := Option.bind_eq_some_iff.mp h
      obtain ⟨vd, hd, h⟩ := Option.bind_eq_some_iff.mp h
      obtain ⟨rfl, rfl⟩ := Prod.mk.inj (Option.some.inj h)
      exact ⟨[a, b, c, d], .mk ha hb hc hd, rfl, List.cons_ne_nil e rest⟩
  · rintro ⟨t, ht, rfl, hmore⟩
    exact hexUnit?_append ht hmore

theorem UnitText.length {n : ℕ} (h : UnitText n t) : t.length = 4 := by
  cases h
  rfl

theorem CharsText.quoted {cs : List Char} (h : CharsText cs t) :
    QuotedText (String.ofList cs) ('"' :: (t ++ ['"'])) := by
  rw [← @String.toList_ofList cs] at h
  exact .mk h

theorem charsText_self (h : t.all isPlain = true) : CharsText t t := by
  induction t with
  | nil => exact .nil
  | cons c t ih =>
      rw [List.all_cons, Bool.and_eq_true] at h
      exact .cons (.plain h.1) (ih h.2)

theorem unitChar_toNat (c : Char) : isHighUnit c.toNat = false ∧ unitChar c.toNat = c := by
  have hvalid : c.toNat < 0xd800 ∨ 0xdfff < c.toNat ∧ c.toNat < 0x110000 := c.valid
  have hhigh : isHighUnit c.toNat = false := by simp [isHighUnit]; omega
  have hlow : isLowUnit c.toNat = false := by simp [isLowUnit]; omega
  refine ⟨hhigh, ?_⟩
  unfold unitChar
  rw [hhigh, hlow]
  exact Char.ofNat_toNat c

theorem scanEscape_unit {c : Char} (h : UnitText c.toNat t) (hmore : more ≠ []) (cursor : Cursor) :
    scanEscape start cursor ('u' :: (t ++ more)) = .ok (c, cursor.advance 6 more) := by
  obtain ⟨hhigh, hchar⟩ := unitChar_toNat c
  simp only [scanEscape, scanUnicode, hexUnit?_append h hmore, hhigh, hchar, Bool.false_eq_true,
    if_false]

theorem scanEscape_pair {high low : ℕ} {u : List Char} (ht : UnitText high t)
    (hu : UnitText low u) (hhigh : isHighUnit high = true) (hlow : isLowUnit low = true)
    (hmore : more ≠ []) (cursor : Cursor) :
    scanEscape start cursor ('u' :: (t ++ '\\' :: 'u' :: (u ++ more))) =
      .ok (pairChar high low, cursor.advance 12 more) := by
  have hlength : ¬ (u ++ more).length < 5 := by
    have := List.length_pos_iff.mpr hmore
    rw [List.length_append, hu.length]
    omega
  have hfirst := hexUnit?_append ht (List.cons_ne_nil '\\' ('u' :: (u ++ more)))
  simp only [scanEscape, scanUnicode, hfirst, hhigh, hlength, hexUnit?_append hu hmore, hlow,
    if_true, if_false]

theorem scanText_escaped {c : Char} {next : Cursor}
    (h : scanEscape start ⟨position, '\\' :: t⟩ t = .ok (c, next)) :
    scanText start (fuel + 1) ⟨position, '\\' :: t⟩ done =
      scanText start fuel next (c :: done) := by
  rw [scanText_escape, h]
  rfl

/-- A character costs one unit of fuel, however it is spelled. -/
theorem scanText_char {c : Char} (h : CharText c t) (hmore : more ≠ []) :
    ∃ next, scanText start (fuel + 1) ⟨position, t ++ more⟩ done =
      scanText start fuel ⟨next, more⟩ (c :: done) := by
  cases h with
  | plain hc =>
      obtain ⟨⟨hcontrol, hquote⟩, hslash⟩ : (0x20 ≤ c.toNat ∧ c ≠ '"') ∧ c ≠ '\\' := by
        simpa [isPlain] using hc
      exact ⟨position + 1, scanText_plain (not_lt.mpr hcontrol) hquote hslash⟩
  | escape he => exact ⟨_, scanText_escaped (scanEscape_letter he _)⟩
  | unit h => exact ⟨_, scanText_escaped (scanEscape_unit h hmore _)⟩
  | pair ht hu hhigh hlow =>
      simp only [List.cons_append, List.append_assoc]
      exact ⟨_, scanText_escaped (scanEscape_pair ht hu hhigh hlow hmore _)⟩

theorem CharText.length_pos {c : Char} (h : CharText c t) : 0 < t.length := by
  cases h <;> simp

theorem scanText_chars {cs : List Char} (h : CharsText cs t) (hfuel : t.length < fuel) :
    ∃ next, scanText start fuel ⟨position, t ++ '"' :: rest⟩ done =
      .ok (String.ofList (done.reverse ++ cs), ⟨next, rest⟩) := by
  induction h generalizing fuel position done with
  | nil =>
      obtain ⟨fuel, rfl⟩ := Nat.exists_eq_add_of_lt hfuel
      refine ⟨position + 1, ?_⟩
      simp [scanText, Cursor.advance]
  | @cons c cs t u hc _ ih =>
      have hpos := hc.length_pos
      rw [List.length_append] at hfuel
      obtain ⟨fuel, rfl⟩ := Nat.exists_eq_add_of_lt (Nat.zero_lt_of_lt hfuel)
      rw [Nat.zero_add, List.append_assoc]
      obtain ⟨next, hnext⟩ :
          ∃ next, scanText start (fuel + 1) ⟨position, t ++ (u ++ '"' :: rest)⟩ done =
            scanText start fuel ⟨next, u ++ '"' :: rest⟩ (c :: done) :=
        scanText_char hc (List.append_ne_nil_of_right_ne_nil u (List.cons_ne_nil '"' rest))
      obtain ⟨last, hlast⟩ := @ih fuel next (c :: done) (by omega)
      exact ⟨last, by rw [hnext, hlast]; simp⟩

theorem textAfterQuote_chars {s : String} (h : CharsText s.toList t) (hfuel : t.length < fuel) :
    ∃ next, textAfterQuote fuel ⟨position, t ++ '"' :: rest⟩ = .ok (s, ⟨next, rest⟩) := by
  have hscan : ∃ next, textAfterQuote fuel ⟨position, t ++ '"' :: rest⟩ =
      .ok (String.ofList ([].reverse ++ s.toList), ⟨next, rest⟩) := scanText_chars h hfuel
  simpa using hscan

end Texts

section Blanks

variable {position : ℕ} {before rest : List Char} {c : Char}

theorem skipBlanks_append (h : Blanks before) (hc : isBlank c = false) :
    ∃ next, Cursor.skipBlanks ⟨position, before ++ c :: rest⟩ = ⟨next, c :: rest⟩ := by
  refine ⟨_, congrArg (Cursor.mk _) ?_⟩
  rw [List.dropWhile_append_of_pos h]
  simp [hc]

theorem skipBlanks_all (h : Blanks before) :
    (Cursor.skipBlanks ⟨position, before⟩).rest = [] := by
  change before.dropWhile isBlank = []
  exact List.dropWhile_eq_nil_iff.mpr h

theorem endsNumber_append (h : Blanks before) (hrest : EndsNumber rest) :
    EndsNumber (before ++ rest) := by
  rcases before with _ | ⟨b, bs⟩
  · exact hrest
  · intro c hc
    obtain rfl : b = c := Option.some.inj hc
    have hb := h b (List.mem_cons_self ..)
    simp only [isBlank, Bool.or_eq_true, beq_iff_eq] at hb
    obtain ((rfl | rfl) | rfl) | rfl := hb <;> decide

end Blanks

def opens (c : Char) : Bool :=
  isDecimalDigit c || ['"', '[', '\x7b', '-', 'n', 't', 'f', 'N', 'I'].contains c

theorem isBlank_of_opens {c : Char} (h : opens c = true) : isBlank c = false := by
  by_contra hblank
  simp only [isBlank, Bool.not_eq_false, Bool.or_eq_true, beq_iff_eq] at hblank
  obtain ((rfl | rfl) | rfl) | rfl := hblank <;> exact absurd h (by decide)

def Begins (t : List Char) : Prop := ∃ c cs, t = c :: cs ∧ opens c = true

theorem Begins.ne_mark {t : List Char} (h : Begins t) {mark : Char} (hmark : opens mark = false)
    (rest : List Char) : t ≠ mark :: rest := by
  obtain ⟨c, cs, rfl, hc⟩ := h
  rintro heq
  rw [(List.cons.inj heq).1, hmark] at hc
  cases hc

/-- With as much fuel as the text has characters, the reader takes it for the value. -/
structure Reads (depth : ℕ) (v : Value) (t : List Char) : Prop where
  head : Begins t
  scan : ∀ fuel position rest, t.length ≤ fuel + 1 → EndsNumber rest →
    ∃ next, scanValue (fuel + 1) depth ⟨position, t ++ rest⟩ = .ok (v, ⟨next, rest⟩)

section Scalars

variable {fuel depth : ℕ} {v : Value} {t : List Char}

theorem not_opener_of_digit {cs ds : List Char} {d : Char} (hd : isDecimalDigit d = true)
    (h : cs = d :: ds ∨ cs = '-' :: d :: ds) : ∀ word ∈ openers, ¬ word <+: cs := by
  have hne : ∀ c ∈ ['"', '\x7b', '[', 'n', 't', 'f', 'N', 'I', '-'], c ≠ d := by
    rintro c hc rfl
    have hnone : ['"', '\x7b', '[', 'n', 't', 'f', 'N', 'I', '-'].any isDecimalDigit = false := by
      decide
    exact absurd hd (List.any_eq_false.mp hnone c hc)
  simp only [List.forall_mem_cons] at hne
  rcases h with rfl | rfl <;> simp [openers, List.cons_prefix_cons, hne]

theorem reads_numeral {n : Number} {negative : Bool} {x : Numeral} (hx : x.IsLiteral)
    (ht : t = Layout.minus negative ++ x.text)
    (hscan : ∀ position rest, EndsNumber rest →
      ∃ next, scanNumber ⟨position, t ++ rest⟩ = .ok (n, ⟨next, rest⟩)) :
    Reads depth (.number n) t := by
  obtain ⟨d, hd, hdigit⟩ := head?_text_append hx []
  rw [List.append_nil] at hd
  obtain ⟨ds, hds⟩ := List.head?_eq_some_iff.mp hd
  have hhead : t = d :: ds ∨ t = '-' :: d :: ds := by
    rw [ht, hds]
    cases negative with
    | true => exact .inr rfl
    | false => exact .inl rfl
  constructor
  · rcases hhead with rfl | rfl
    · exact ⟨d, ds, rfl, by simp [opens, hdigit]⟩
    · exact ⟨'-', d :: ds, rfl, rfl⟩
  · intro fuel position rest _ hrest
    obtain ⟨next, hnext⟩ := hscan position rest hrest
    refine ⟨next, ?_⟩
    rw [scanValue_number (not_opener_of_digit hdigit
      (hhead.imp (congrArg (· ++ rest)) (congrArg (· ++ rest)))), hnext]
    rfl

theorem reads_number {n : Number} (hn : (Value.number n).holdsLongInteger = false) :
    Reads depth (.number n) n.jsonText := by
  cases n with
  | int i =>
      have htext : (Number.int i).jsonText = Layout.integer i := String.toList_ofList
      have hnatural : Layout.integer i = _ ++ Numeral.text _ :=
        congrArg _ (numeral_text_of_whole _).symm
      rw [htext]
      exact reads_numeral (natural_isPlain i.natAbs).isLiteral hnatural fun position rest hrest =>
        scanNumber_int hrest hn position
  | float y =>
      cases y with
      | nan => exact ⟨⟨'N', ['a', 'N'], rfl, rfl⟩, fun _ position _ _ _ => ⟨position + 3, rfl⟩⟩
      | infinity s =>
          cases s with
          | true =>
              exact ⟨⟨'-', _, rfl, rfl⟩, fun _ position _ _ _ => ⟨position + 9, rfl⟩⟩
          | false =>
              exact ⟨⟨'I', _, rfl, rfl⟩, fun _ position _ _ _ => ⟨position + 8, rfl⟩⟩
      | finite s m e h =>
          obtain ⟨negative, x, hx⟩ := Binary64.exists_displayedAs (y := .finite s m e h) rfl
          exact reads_numeral hx.literal hx.text fun position rest hrest =>
            scanNumber_displayed hrest hx position

theorem reads_text {s : String} (h : QuotedText s t) : Reads depth (.text s) t := by
  cases h with
  | @mk t ht =>
      refine ⟨⟨'"', _, rfl, rfl⟩, fun fuel position rest hfuel _ => ?_⟩
      have hlength : t.length < fuel := by
        simp at hfuel
        omega
      obtain ⟨next, hnext⟩ := @textAfterQuote_chars fuel (position + 1) rest t s ht hlength
      refine ⟨next, ?_⟩
      simp [scanValue, Cursor.advance, hnext]

theorem reads_scalar (h : ScalarText v t) (hv : v.holdsLongInteger = false) : Reads depth v t := by
  cases h with
  | null => exact ⟨⟨'n', _, rfl, rfl⟩, fun _ position _ _ _ => ⟨position + 4, rfl⟩⟩
  | true => exact ⟨⟨'t', _, rfl, rfl⟩, fun _ position _ _ _ => ⟨position + 4, rfl⟩⟩
  | false => exact ⟨⟨'f', _, rfl, rfl⟩, fun _ position _ _ _ => ⟨position + 5, rfl⟩⟩
  | number n => exact reads_number hv
  | text h => exact reads_text h

end Scalars

section Parts

variable {α : Type} {R R' : α → List Char → Prop} {x : α} {xs : List α} {t : List Char}

theorem Padded.imp (h : Padded R x t) (hR : ∀ t, R x t → R' x t) : Padded R' x t := by
  obtain ⟨before, after, hbefore, hafter, hx⟩ := h
  exact .mk before after hbefore hafter (hR _ hx)

theorem Separated.imp (h : Separated R xs t) (hR : ∀ x ∈ xs, ∀ t, R x t → R' x t) :
    Separated R' xs t := by
  induction h with
  | single hx => exact .single (hR _ (List.mem_singleton_self _) _ hx)
  | cons hx _ ih =>
      exact .cons (hR _ (List.mem_cons_self ..) _ hx)
        (ih fun y hy => hR y (List.mem_cons_of_mem _ hy))

theorem MemberText.imp {S S' : Value → List Char → Prop} {member : String × Value}
    (h : MemberText S member t) (hS : ∀ t, S member.2 t → S' member.2 t) :
    MemberText S' member t := by
  obtain ⟨before, after, hbefore, hafter, hname, hv⟩ := h
  exact .mk before after hbefore hafter hname (hS _ hv)

theorem Padded.skip (hR : ∀ x t, R x t → Begins t) (h : Padded R x t) (position : ℕ)
    (more : List Char) :
    ∃ next core after, Cursor.skipBlanks ⟨position, t ++ more⟩ = ⟨next, core ++ (after ++ more)⟩ ∧
      R x core ∧ Blanks after ∧ core.length + after.length ≤ t.length := by
  cases h with
  | @mk core before after hbefore hafter hcore =>
      obtain ⟨c, cs, rfl, hc⟩ := hR x core hcore
      obtain ⟨next, hnext⟩ :=
        @skipBlanks_append position before (cs ++ (after ++ more)) c hbefore (isBlank_of_opens hc)
      exact ⟨next, c :: cs, after, by simpa using hnext, hcore, hafter, by simp; omega⟩

theorem Separated.begins (hR : ∀ x t, R x t → Begins t) (h : Separated (Padded R) xs t)
    (position : ℕ) (more : List Char) :
    Begins (Cursor.skipBlanks ⟨position, t ++ more⟩).rest := by
  have hfirst : ∀ {x t} more, Padded R x t →
      Begins (Cursor.skipBlanks ⟨position, t ++ more⟩).rest := by
    intro x t more hx
    obtain ⟨next, core, after, hskip, hcore, -, -⟩ := hx.skip hR position more
    obtain ⟨c, cs, rfl, hc⟩ := hR x core hcore
    exact ⟨c, cs ++ (after ++ more), by rw [hskip]; rfl, hc⟩
  cases h with
  | single hx => exact hfirst more hx
  | cons hx _ =>
      rw [List.append_assoc]
      exact hfirst _ hx

end Parts

/-- A character that follows a part of a container. -/
def isMark (c : Char) : Bool := [',', ']', '\x7d'].contains c

section Marks

variable {mark : Char} {rest : List Char}

theorem mark_cases (h : isMark mark = true) : mark = ',' ∨ mark = ']' ∨ mark = '\x7d' := by
  simpa [isMark] using h

theorem endsNumber_mark (h : isMark mark = true) : EndsNumber (mark :: rest) := by
  intro c hc
  obtain rfl : mark = c := Option.some.inj hc
  obtain rfl | rfl | rfl := mark_cases h <;> decide

theorem isBlank_mark (h : isMark mark = true) : isBlank mark = false := by
  obtain rfl | rfl | rfl := mark_cases h <;> rfl

end Marks

section Items

variable {fuel depth position : ℕ} {rest t : List Char} {v : Value} {mark : Char}

theorem scanValue_padded (h : Padded (Reads depth) v t) (ht : t.length ≤ fuel)
    (hmark : isMark mark = true) :
    ∃ after next, scanValue fuel depth (Cursor.skipBlanks ⟨position, t ++ mark :: rest⟩) =
      .ok (v, after) ∧ after.skipBlanks = ⟨next, mark :: rest⟩ := by
  obtain ⟨start, core, after, hskip, hcore, hafter, hlength⟩ :=
    h.skip (fun _ _ hv => hv.head) position (mark :: rest)
  obtain ⟨fuel, rfl⟩ : ∃ k, fuel = k + 1 := by
    obtain ⟨c, cs, rfl, -⟩ := hcore.head
    refine Nat.exists_eq_succ_of_ne_zero ?_
    simp at hlength
    omega
  obtain ⟨finish, hfinish⟩ := hcore.scan fuel start (after ++ mark :: rest) (by omega)
    (endsNumber_append hafter (endsNumber_mark hmark))
  obtain ⟨next, hnext⟩ :=
    @skipBlanks_append finish after rest mark hafter (isBlank_mark hmark)
  exact ⟨⟨finish, after ++ mark :: rest⟩, next, by rw [hskip, hfinish], hnext⟩

theorem scanItems_padded {done : List Value} (h : Padded (Reads depth) v t) (ht : t.length ≤ fuel)
    (hmark : isMark mark = true) :
    ∃ next, scanItems (fuel + 1) depth (Cursor.skipBlanks ⟨position, t ++ mark :: rest⟩) done =
      afterPart ']' (.list (v :: done).reverse) (fun c => scanItems fuel depth c (v :: done))
        ⟨next, mark :: rest⟩ := by
  obtain ⟨after, next, hvalue, hnext⟩ :=
    @scanValue_padded fuel depth position rest t v mark h ht hmark
  refine ⟨next, ?_⟩
  rw [scanItems_succ, hvalue, ← hnext]
  rfl

theorem scanItems_separated {items done : List Value}
    (h : Separated (Padded (Reads depth)) items t) (ht : t.length < fuel) :
    ∃ next, scanItems fuel depth (Cursor.skipBlanks ⟨position, t ++ ']' :: rest⟩) done =
      .ok (.list (done.reverse ++ items), ⟨next, rest⟩) := by
  induction h generalizing fuel position done with
  | @single v t hv =>
      obtain ⟨fuel, rfl⟩ := Nat.exists_eq_add_of_lt (Nat.zero_lt_of_lt ht)
      obtain ⟨next, hnext⟩ := @scanItems_padded (0 + fuel) depth position rest t v ']' done hv
        (by omega) rfl
      exact ⟨next + 1, by rw [hnext, ← List.reverse_cons]; rfl⟩
  | @cons v vs t u hv _ ih =>
      rw [List.length_append, List.length_cons] at ht
      obtain ⟨fuel, rfl⟩ := Nat.exists_eq_add_of_lt (Nat.zero_lt_of_lt ht)
      obtain ⟨next, hnext⟩ := @scanItems_padded (0 + fuel) depth position (u ++ ']' :: rest) t v ','
        done hv (by omega) rfl
      obtain ⟨last, hlast⟩ := @ih (0 + fuel) (next + 1) (v :: done) (by omega)
      rw [List.reverse_cons, List.append_assoc] at hlast
      refine ⟨last, ?_⟩
      rw [List.append_assoc, List.cons_append, hnext]
      exact hlast

end Items

section Members

variable {fuel depth position : ℕ} {rest t : List Char} {v : Value} {name : String} {mark : Char}
  {done : List (String × Value)}

theorem begins_memberText {S : Value → List Char → Prop} (member : String × Value)
    (t : List Char) (h : MemberText S member t) : Begins t := by
  obtain ⟨-, -, -, -, hname, -⟩ := h
  obtain ⟨-⟩ := hname
  exact ⟨'"', _, rfl, rfl⟩

theorem scanMembers_padded (h : Padded (MemberText (Reads depth)) (name, v) t)
    (ht : t.length ≤ fuel) (hmark : isMark mark = true) :
    ∃ next, scanMembers (fuel + 1) depth (Cursor.skipBlanks ⟨position, t ++ mark :: rest⟩) done =
      afterPart '\x7d' (.record (Value.insert name v done))
        (fun c => scanMembers fuel depth c (Value.insert name v done)) ⟨next, mark :: rest⟩ := by
  obtain ⟨start, core, after, hskip, hcore, hafter, hlength⟩ :=
    h.skip begins_memberText position (mark :: rest)
  cases hcore with
  | @mk _ _ n t before behind hbefore hbehind hname hv =>
      cases hname with
      | @mk n hchars =>
          simp only [List.length_append, List.length_cons, List.length_nil] at hlength
          obtain ⟨passed, hn⟩ := @textAfterQuote_chars fuel (start + 1)
            (before ++ ':' :: (behind ++ (t ++ (after ++ mark :: rest)))) n name hchars (by omega)
          obtain ⟨colon, hcolon⟩ := @skipBlanks_append passed before
            (behind ++ (t ++ (after ++ mark :: rest))) ':' hbefore rfl
          have hpadded : Padded (Reads depth) v (behind ++ (t ++ after)) :=
            .mk behind after hbehind hafter hv
          have hlength' : (behind ++ (t ++ after)).length ≤ fuel := by
            simp only [List.length_append]
            omega
          obtain ⟨last, next, hvalue, hnext⟩ :=
            @scanValue_padded fuel depth (colon + 1) rest _ v mark hpadded hlength' hmark
          refine ⟨next, ?_⟩
          simp only [List.append_assoc] at hvalue
          simp only [hskip, List.cons_append, List.append_assoc, List.nil_append]
          rw [scanMembers_name, hn]
          change afterName fuel depth name done (Cursor.skipBlanks _) = _
          rw [hcolon, afterName_colon, hvalue, ← hnext]
          rfl

theorem insert_new (h : name ∉ done.map Prod.fst) :
    Value.insert name v done = done ++ [(name, v)] := by
  induction done with
  | nil => rfl
  | cons entry done ih =>
      rw [List.map_cons, List.mem_cons, not_or] at h
      rw [Value.insert, if_neg (Ne.symm h.1), ih h.2, List.cons_append]

theorem scanMembers_separated {entries : List (String × Value)}
    (h : Separated (Padded (MemberText (Reads depth))) entries t) (ht : t.length < fuel)
    (hnames : ((done ++ entries).map Prod.fst).Nodup) :
    ∃ next, scanMembers fuel depth (Cursor.skipBlanks ⟨position, t ++ '\x7d' :: rest⟩) done =
      .ok (.record (done ++ entries), ⟨next, rest⟩) := by
  have hnew : ∀ {done : List (String × Value)} {member entries},
      ((done ++ member :: entries).map Prod.fst).Nodup → member.1 ∉ done.map Prod.fst := by
    intro done member entries hnames
    rw [List.map_append, List.map_cons] at hnames
    exact fun hmem => (List.nodup_append.mp hnames).2.2 _ hmem _ (List.mem_cons_self ..) rfl
  induction h generalizing fuel position done with
  | @single member t hmember =>
      obtain ⟨fuel, rfl⟩ := Nat.exists_eq_add_of_lt (Nat.zero_lt_of_lt ht)
      obtain ⟨next, hnext⟩ := @scanMembers_padded (0 + fuel) depth position rest t member.2 member.1
        '\x7d' done hmember (by omega) rfl
      exact ⟨next + 1, by rw [hnext, insert_new (hnew hnames)]; rfl⟩
  | @cons member entries t u hmember _ ih =>
      rw [List.length_append, List.length_cons] at ht
      obtain ⟨fuel, rfl⟩ := Nat.exists_eq_add_of_lt (Nat.zero_lt_of_lt ht)
      obtain ⟨next, hnext⟩ := @scanMembers_padded (0 + fuel) depth position (u ++ '\x7d' :: rest) t
        member.2 member.1 ',' done hmember (by omega) rfl
      have hinsert := @insert_new member.2 member.1 done (hnew hnames)
      rw [List.append_cons] at hnames
      obtain ⟨last, hlast⟩ := @ih (0 + fuel) (next + 1) (done ++ [member]) (by omega) hnames
      refine ⟨last, ?_⟩
      rw [List.append_assoc, List.cons_append, hnext, hinsert, List.append_cons done member entries]
      exact hlast

end Members

section Values

variable {depth : ℕ} {v : Value} {t : List Char}

theorem reads_container {S : Value → List Char → Prop}
    (hS : ∀ w u, S w u → w.holdsLongInteger = false → Reads depth w u) (h : ContainerText S v t)
    (hv : v.holdsLongInteger = false) : Reads (depth + 1) v t := by
  cases h with
  | @emptyList b hb =>
      refine ⟨⟨'[', _, rfl, rfl⟩, fun fuel position rest _ _ => ?_⟩
      obtain ⟨next, hnext⟩ := @skipBlanks_append (position + 1) b rest ']' hb rfl
      refine ⟨next + 1, ?_⟩
      rw [List.cons_append, List.append_assoc, List.singleton_append, scanValue_list, hnext]
      rfl
  | @emptyRecord b hb =>
      refine ⟨⟨'\x7b', _, rfl, rfl⟩, fun fuel position rest _ _ => ?_⟩
      obtain ⟨next, hnext⟩ := @skipBlanks_append (position + 1) b rest '\x7d' hb rfl
      refine ⟨next + 1, ?_⟩
      rw [List.cons_append, List.append_assoc, List.singleton_append, scanValue_record, hnext]
      rfl
  | @list items t hitems =>
      refine ⟨⟨'[', _, rfl, rfl⟩, fun fuel position rest hfuel _ => ?_⟩
      have hshort : ∀ w ∈ items, w.holdsLongInteger = false := by
        rw [Value.holdsLongInteger, anyLongInteger_eq] at hv
        simpa using hv
      have hreads : Separated (Padded (Reads depth)) items t := hitems.imp fun w hw _ hpadded =>
        hpadded.imp fun u hu => hS w u hu (hshort w hw)
      have hlength : t.length < fuel := by
        simp at hfuel
        omega
      have hbegins := hreads.begins (fun _ _ h => h.head) (position + 1) (']' :: rest)
      obtain ⟨next, hnext⟩ := @scanItems_separated fuel depth (position + 1) rest t items []
        hreads hlength
      refine ⟨next, ?_⟩
      rw [List.cons_append, List.append_assoc, List.singleton_append, scanValue_list,
        afterBracket_go (hbegins.ne_mark rfl)]
      exact hnext
  | @record entries t hnames hentries =>
      refine ⟨⟨'\x7b', _, rfl, rfl⟩, fun fuel position rest hfuel _ => ?_⟩
      have hshort : ∀ member ∈ entries, member.2.holdsLongInteger = false := by
        rw [Value.holdsLongInteger, anyLongEntry_eq] at hv
        simpa using hv
      have hreads : Separated (Padded (MemberText (Reads depth))) entries t :=
        hentries.imp fun member hmember _ hpadded => hpadded.imp fun _ hu => hu.imp fun u hu =>
          hS member.2 u hu (hshort member hmember)
      have hlength : t.length < fuel := by
        simp at hfuel
        omega
      have hbegins := hreads.begins begins_memberText (position + 1) ('\x7d' :: rest)
      obtain ⟨next, hnext⟩ := @scanMembers_separated fuel depth (position + 1) rest t [] entries
        hreads hlength hnames
      refine ⟨next, ?_⟩
      rw [List.cons_append, List.append_assoc, List.singleton_append, scanValue_record,
        afterBracket_go (hbegins.ne_mark rfl)]
      exact hnext

/-- Levels that are left do not matter. -/
theorem reads_of_spells {levels : ℕ} (h : Spells levels v t) (hlevels : levels ≤ depth)
    (hv : v.holdsLongInteger = false) : Reads depth v t := by
  induction levels generalizing depth v t with
  | zero => exact reads_scalar h hv
  | succ levels ih =>
      rcases h with h | h
      · exact reads_scalar h hv
      · obtain ⟨depth, rfl⟩ := Nat.exists_eq_succ_of_ne_zero (Nat.ne_zero_of_lt hlevels)
        exact reads_container (fun w u hw hshort => ih hw (Nat.le_of_succ_le_succ hlevels) hshort)
          h hv

/-- However a value is spelled, with blanks around it, the text is read as the value. -/
theorem parse_spelled [Depth] {levels : ℕ} {text : List Char} (h : Padded (Spells levels) v text)
    (hlevels : levels ≤ Depth.brackets) (hv : v.holdsLongInteger = false) : parse text = .ok v := by
  have hreads : Padded (Reads Depth.brackets) v text :=
    h.imp fun t ht => reads_of_spells ht hlevels hv
  obtain ⟨start, core, after, hskip, hcore, hafter, hlength⟩ :=
    hreads.skip (fun _ _ hv => hv.head) 0 []
  have hends : EndsNumber (after ++ []) := endsNumber_append hafter (by simp [EndsNumber])
  obtain ⟨next, hnext⟩ := hcore.scan (2 * text.length + 1) start (after ++ []) (by omega) hends
  rw [← hskip, List.append_nil, List.append_nil] at hnext
  unfold parse
  split
  next rest =>
    -- A byte order mark is no blank and begins no value.
    obtain ⟨c, cs, rfl, hc⟩ := hcore.head
    obtain rfl : '\ufeff' = c := (List.cons.inj (congrArg Cursor.rest hskip)).1
    cases hc
  next =>
    refine bind_eq_ok.mpr ⟨(v, ⟨next, after⟩), hnext, ?_⟩
    simp [skipBlanks_all hafter, pure, Except.pure]

end Values

end VectorPath.Json
