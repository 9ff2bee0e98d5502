import VectorPath.Proofs.Json.Nesting
import VectorPath.Proofs.Outcome

/-!
# What reading JSON comes to

Two facts hold of every text. The integers of a value that has been read are short enough to be
written again, because the reader refuses a numeral with too many digits. And reading fails for the
depth of the nesting only if the text nests so deeply. Both are proved by one induction over the
reader, from what each part of it consumes.
-/

namespace VectorPath.Json

section LongIntegers

theorem anyLongInteger_eq (vs : List Value) :
    Value.anyLongInteger vs = vs.any Value.holdsLongInteger := by
  induction vs with
  | nil => rfl
  | cons v vs ih => rw [Value.anyLongInteger, ih, List.any_cons]

theorem anyLongEntry_eq (entries : List (String × Value)) :
    Value.anyLongEntry entries = entries.any fun entry => entry.2.holdsLongInteger := by
  induction entries with
  | nil => rfl
  | cons entry rest ih => rw [Value.anyLongEntry, ih, List.any_cons]

theorem anyLongEntry_insert (name : String) {v : Value} {entries : List (String × Value)}
    (hv : v.holdsLongInteger = false) (h : Value.anyLongEntry entries = false) :
    Value.anyLongEntry (Value.insert name v entries) = false := by
  induction entries with
  | nil => simp [Value.insert, Value.anyLongEntry, hv]
  | cons entry rest ih =>
      rw [Value.anyLongEntry, Bool.or_eq_false_iff] at h
      unfold Value.insert
      split_ifs
      · simp [Value.anyLongEntry, hv, h.2]
      · simp [Value.anyLongEntry, h.1, ih h.2]

end LongIntegers

/-- A value without long integers, after which so many brackets fewer are open. -/
def Closes (closed : ℕ) (cs : List Char) (v : Value) (next : Cursor) : Prop :=
  v.holdsLongInteger = false ∧
    ∀ n, nestingFrom .outside n next.rest ≤ nestingFrom .outside (n + closed) cs

/-- The text opens more brackets than the levels that are left. -/
def ExceedsDepth (depth : ℕ) (cs : List Char) : Prop :=
  ∀ n, n + depth < nestingFrom .outside n cs

section Values

variable {n : ℕ} {rest : List Char}

theorem nestingFrom_le_open {c : Char} (hc : c = '[' ∨ c = '\x7b') (n : ℕ) (rest : List Char) :
    nestingFrom .outside (n + 1) rest ≤ nestingFrom .outside n (c :: rest) := by
  have hle := nestingFrom_le_cons .outside n c rest
  rcases hc with rfl | rfl <;> exact hle

theorem nestingFrom_le_close {c : Char} (hc : c = ']' ∨ c = '\x7d') :
    nestingFrom .outside n rest ≤ nestingFrom .outside (n + 1) (c :: rest) := by
  have hle := nestingFrom_le_cons .outside (n + 1) c rest
  rcases hc with rfl | rfl <;> exact hle

/-- A container is refused at depth zero. Otherwise it is empty, or what follows its bracket is
read with one level less. -/
theorem Yields.container {c : Char} (hc : c = '[' ∨ c = '\x7b') {depth : ℕ}
    {r : Except Error (Value × Cursor)} (h : Yields (Closes 1 rest) (ExceedsDepth depth rest) r) :
    Yields (Closes 0 (c :: rest)) (ExceedsDepth (depth + 1) (c :: rest)) r := by
  refine h.imp (fun hdeep n => ?_) fun v next hv => ⟨hv.1, fun n => ?_⟩
  · have := hdeep (n + 1)
    have := nestingFrom_le_open hc n rest
    omega
  · exact (hv.2 n).trans (nestingFrom_le_open hc n rest)

theorem exceedsDepth_zero {c : Char} (hc : c = '[' ∨ c = '\x7b') :
    ExceedsDepth 0 (c :: rest) := by
  intro n
  have := nestingFrom_le_open hc n rest
  have := le_nestingFrom .outside (n + 1) rest
  omega

theorem closes_word (word : List Char) {v : Value} {next : Cursor}
    (hv : v.holdsLongInteger = false) (h : word.all isNeutral = true) (hnext : next.rest = rest) :
    Closes 0 (word ++ rest) v next := by
  refine ⟨hv, fun n => ?_⟩
  rw [nestingFrom_append (List.all_eq_true.mp h), hnext]
  exact le_rfl

/-- What is read from a later part of a text is read from the text. -/
theorem Yields.later {closed depth : ℕ} {cs later : List Char} {r : Except Error (Value × Cursor)}
    (h : Yields (Closes closed later) (ExceedsDepth depth later) r)
    (hle : ∀ n, nestingFrom .outside n later ≤ nestingFrom .outside n cs) :
    Yields (Closes closed cs) (ExceedsDepth depth cs) r :=
  h.imp (fun hdeep n => (hdeep n).trans_le (hle n))
    fun _ _ hv => ⟨hv.1, fun n => (hv.2 n).trans (hle (n + closed))⟩

section Blanks

variable {c : Cursor}

theorem nestingFrom_closed {bracket : Char} (hbracket : bracket = ']' ∨ bracket = '\x7d')
    (h : c.skipBlanks.rest = bracket :: rest) (n : ℕ) :
    nestingFrom .outside n rest ≤ nestingFrom .outside (n + 1) c.rest := by
  rw [← nestingFrom_skipBlanks, h]
  exact nestingFrom_le_close hbracket

theorem nestingFrom_passed {mark : Char} (hmark : isNeutral mark = true)
    (h : c.skipBlanks.rest = mark :: rest) (n : ℕ) :
    nestingFrom .outside n (c.skipBlanks.advance 1 rest).skipBlanks.rest =
      nestingFrom .outside n c.rest := by
  rw [nestingFrom_skipBlanks, ← nestingFrom_skipBlanks c, h, nestingFrom_neutral hmark]
  rfl

end Blanks

end Values

/-- What reading comes to with so much fuel: values, the items of an array and the members of an
object. An item and a member are read behind an open bracket, which is closed in the end. -/
structure ScansAt (fuel : ℕ) : Prop where
  value : ∀ depth c, Yields (Closes 0 c.rest) (ExceedsDepth depth c.rest) (scanValue fuel depth c)
  items : ∀ depth c done, Value.anyLongInteger done = false →
    Yields (Closes 1 c.rest) (ExceedsDepth depth c.rest) (scanItems fuel depth c done)
  members : ∀ depth c done, Value.anyLongEntry done = false →
    Yields (Closes 1 c.rest) (ExceedsDepth depth c.rest) (scanMembers fuel depth c done)

section Step

variable {fuel : ℕ}

theorem textAfterQuote_yields (fuel : ℕ) (c : Cursor) (rest : List Char) :
    Yields (fun _ next => ∀ n, nestingFrom .outside n next.rest ≤
        nestingFrom .outside n ('"' :: rest))
      False (textAfterQuote fuel (c.advance 1 rest)) := by
  refine (scanText_yields _ fuel (c.advance 1 rest) []).imp id fun s next h n => ?_
  exact (h n).trans (nestingFrom_le_cons .outside n '"' rest)

theorem scanValue_succ_yields (h : ScansAt fuel) (depth : ℕ) (c : Cursor) :
    Yields (Closes 0 c.rest) (ExceedsDepth depth c.rest) (scanValue (fuel + 1) depth c) := by
  unfold scanValue
  -- The cases are those of the reader: a text, an object, an array, six words and a number.
  split
  next rest hrest =>
    rw [hrest]
    exact (textAfterQuote_yields fuel c rest).bind False.elim fun s next hnext =>
      .read ⟨rfl, hnext⟩
  next rest hrest =>
    rw [hrest]
    split
    next => exact .tooDeep (exceedsDepth_zero (.inr rfl))
    next depth =>
      refine Yields.container (.inr rfl) ?_
      dsimp only
      split
      next last hlast => exact .read ⟨rfl, nestingFrom_closed (.inr rfl) hlast⟩
      next =>
        exact (h.members depth _ [] rfl).later fun n => (nestingFrom_skipBlanks _).le
  next rest hrest =>
    rw [hrest]
    split
    next => exact .tooDeep (exceedsDepth_zero (.inl rfl))
    next depth =>
      refine Yields.container (.inl rfl) ?_
      dsimp only
      split
      next last hlast => exact .read ⟨rfl, nestingFrom_closed (.inl rfl) hlast⟩
      next =>
        exact (h.items depth _ [] rfl).later fun n => (nestingFrom_skipBlanks _).le
  next rest hrest =>
    rw [hrest]
    exact .read (closes_word ['n', 'u', 'l', 'l'] rfl (by decide) rfl)
  next rest hrest =>
    rw [hrest]
    exact .read (closes_word ['t', 'r', 'u', 'e'] rfl (by decide) rfl)
  next rest hrest =>
    rw [hrest]
    exact .read (closes_word ['f', 'a', 'l', 's', 'e'] rfl (by decide) rfl)
  next rest hrest =>
    rw [hrest]
    exact .read (closes_word ['N', 'a', 'N'] rfl (by decide) rfl)
  next rest hrest =>
    rw [hrest]
    exact .read (closes_word ['I', 'n', 'f', 'i', 'n', 'i', 't', 'y'] rfl (by decide) rfl)
  next rest hrest =>
    rw [hrest]
    exact .read (closes_word ['-', 'I', 'n', 'f', 'i', 'n', 'i', 't', 'y'] rfl (by decide) rfl)
  next =>
    refine (scanNumber_yields c).bind False.elim fun n next hn => ?_
    exact .read ⟨hn.1, fun k => (hn.2 k).le⟩

theorem scanItems_succ_yields (h : ScansAt fuel) (depth : ℕ) (c : Cursor) {done : List Value}
    (hdone : Value.anyLongInteger done = false) :
    Yields (Closes 1 c.rest) (ExceedsDepth depth c.rest) (scanItems (fuel + 1) depth c done) := by
  unfold scanItems
  refine (h.value depth c).bind id fun v after hv => ?_
  have hcons : Value.anyLongInteger (v :: done) = false := by
    rw [Value.anyLongInteger, hv.1, hdone, Bool.or_self]
  dsimp only
  split
  next rest hrest =>
    have hreverse : Value.anyLongInteger (v :: done).reverse = false := by
      rw [anyLongInteger_eq, List.any_reverse, ← anyLongInteger_eq, hcons]
    exact .read ⟨hreverse, fun n =>
      (nestingFrom_closed (.inl rfl) hrest n).trans (hv.2 (n + 1))⟩
  next rest hrest =>
    exact (h.items depth _ (v :: done) hcons).later fun n =>
      (nestingFrom_passed (by decide) hrest n).trans_le (hv.2 n)
  next => exact .malformed

theorem scanMembers_succ_yields (h : ScansAt fuel) (depth : ℕ) (c : Cursor)
    {done : List (String × Value)} (hdone : Value.anyLongEntry done = false) :
    Yields (Closes 1 c.rest) (ExceedsDepth depth c.rest)
      (scanMembers (fuel + 1) depth c done) := by
  unfold scanMembers
  split
  next rest hrest =>
    rw [hrest]
    refine (textAfterQuote_yields fuel c rest).bind False.elim fun name afterName hname => ?_
    dsimp only
    split
    next rest' hcolon =>
      have hstart := fun n => (nestingFrom_passed (by decide) hcolon n).trans_le (hname n)
      refine ((h.value depth _).later hstart).bind id fun v after hv => ?_
      have hentries := anyLongEntry_insert name hv.1 hdone
      dsimp only
      split
      next last hlast =>
        exact .read ⟨hentries, fun n =>
          (nestingFrom_closed (.inr rfl) hlast n).trans (hv.2 (n + 1))⟩
      next last hlast =>
        exact (h.members depth _ _ hentries).later fun n =>
          (nestingFrom_passed (by decide) hlast n).trans_le (hv.2 n)
      next => exact .malformed
    next => exact .malformed
  next => exact .malformed

theorem scansAt (fuel : ℕ) : ScansAt fuel := by
  induction fuel with
  | zero => exact ⟨fun _ _ => .malformed, fun _ _ _ _ => .malformed, fun _ _ _ _ => .malformed⟩
  | succ fuel ih =>
      exact ⟨scanValue_succ_yields ih, fun depth c _ => scanItems_succ_yields ih depth c,
        fun depth c _ => scanMembers_succ_yields ih depth c⟩

end Step

section Length

variable {fuel depth : ℕ} {c next : Cursor} {v : Value}

/-- Every item costs a unit. -/
theorem scanItems_length {done : List Value} (h : scanItems fuel depth c done = .ok (v, next)) :
    ∃ items, v = .list items ∧ items.length ≤ done.length + fuel := by
  induction fuel generalizing c done with
  | zero => cases h
  | succ fuel ih =>
      unfold scanItems at h
      obtain ⟨⟨w, after⟩, -, h⟩ := bind_eq_ok.mp h
      dsimp only at h
      split at h
      next =>
        obtain ⟨rfl, -⟩ := Prod.mk.inj (Except.ok.inj h)
        refine ⟨_, rfl, ?_⟩
        rw [List.length_reverse, List.length_cons]
        omega
      next =>
        obtain ⟨items, hitems, hlength⟩ := ih h
        rw [List.length_cons] at hlength
        exact ⟨items, hitems, by omega⟩
      next => cases h

theorem scanMembers_record {done : List (String × Value)}
    (h : scanMembers fuel depth c done = .ok (v, next)) : ∃ entries, v = .record entries := by
  induction fuel generalizing c done with
  | zero => cases h
  | succ fuel ih =>
      unfold scanMembers at h
      split at h
      next =>
        obtain ⟨⟨name, afterName⟩, -, h⟩ := bind_eq_ok.mp h
        dsimp only at h
        split at h
        next =>
          obtain ⟨⟨w, after⟩, -, h⟩ := bind_eq_ok.mp h
          dsimp only at h
          split at h
          next => exact ⟨_, (Prod.mk.inj (Except.ok.inj h)).1.symm⟩
          next => exact ih h
          next => cases h
        next => cases h
      next => cases h

theorem scanValue_length {items : List Value}
    (h : scanValue fuel depth c = .ok (.list items, next)) : items.length ≤ fuel := by
  cases fuel with
  | zero => cases h
  | succ fuel =>
      unfold scanValue at h
      split at h
      next =>
        obtain ⟨⟨s, after⟩, -, h⟩ := bind_eq_ok.mp h
        cases h
      next =>
        split at h
        next => cases h
        next =>
          dsimp only at h
          split at h
          next => cases h
          next =>
            obtain ⟨entries, hentries⟩ := scanMembers_record h
            cases hentries
      next =>
        split at h
        next => cases h
        next =>
          dsimp only at h
          split at h
          next =>
            obtain ⟨hitems, -⟩ := Prod.mk.inj (Except.ok.inj h)
            obtain rfl := Value.list.inj hitems
            exact Nat.zero_le _
          next =>
            obtain ⟨found, hfound, hlength⟩ := scanItems_length h
            obtain rfl := Value.list.inj hfound
            rw [List.length_nil] at hlength
            omega
      next => cases h
      next => cases h
      next => cases h
      next => cases h
      next => cases h
      next => cases h
      next =>
        obtain ⟨⟨n, after⟩, -, h⟩ := bind_eq_ok.mp h
        cases h

end Length

section Parse

variable {text : List Char}

/-- What has been read can be shown and written. -/
theorem parse_holdsLongInteger [Depth] {v : Value} (h : parse text = .ok v) :
    v.holdsLongInteger = false := by
  unfold parse at h
  split at h
  next => cases h
  next =>
    obtain ⟨⟨v', after⟩, hscan, h⟩ := bind_eq_ok.mp h
    have hyields := (scansAt (2 * text.length + 2)).value Depth.brackets
      (Cursor.mk 0 text).skipBlanks
    rw [hscan] at hyields
    cases hyields with
    | read hread =>
        dsimp only at h
        split_ifs at h
        · rw [← Except.ok.inj h]
          exact hread.1
        · cases h

/-- A text is refused for its depth only if it nests deeper than the limit. -/
theorem brackets_lt_nesting [Depth] {container : String}
    (h : parse text = .error (.nestedTooDeep container)) : Depth.brackets < nesting text := by
  unfold parse at h
  split at h
  next => cases h
  next =>
    rcases bind_eq_error.mp h with hscan | ⟨⟨v, after⟩, -, h⟩
    · have hyields := (scansAt (2 * text.length + 2)).value Depth.brackets
        (Cursor.mk 0 text).skipBlanks
      rw [hscan] at hyields
      cases hyields with
      | tooDeep hdeep =>
          have hlt := hdeep 0
          rw [nestingFrom_skipBlanks, Nat.zero_add] at hlt
          exact hlt
    · dsimp only at h
      split_ifs at h
      · cases h
      · cases h

theorem parse_length [Depth] {items : List Value} (h : parse text = .ok (.list items)) :
    items.length ≤ 2 * text.length + 2 := by
  unfold parse at h
  split at h
  next => cases h
  next =>
    obtain ⟨⟨w, after⟩, hscan, h⟩ := bind_eq_ok.mp h
    dsimp only at h
    split_ifs at h
    · obtain rfl : w = .list items := Except.ok.inj h
      exact scanValue_length hscan
    · cases h

end Parse

end VectorPath.Json
