import Mathlib.Data.List.Sort
import Mathlib.Data.String.Basic
import VectorPath.Proofs.Command.Decoding

/-!
# Why a value is refused

A value can fail to be a serialized command in many ways at once. The reason it is refused for is
the first one in a fixed order of the checks, which looks at the keys of a record and at their
values and never at the order of its entries. The fault shows the index and the reason, so there is
none where one of these holds an integer too long for a text.
-/

namespace VectorPath

/-- No key of a record stands in it twice. -/
def Value.HasDistinctKeys : Value → Prop
  | .record entries => (entries.map Prod.fst).Nodup
  | _ => True

namespace Command

/-- Exactly the names with a property, in ascending order. -/
structure Enumerates (names : List String) (P : String → Prop) : Prop where
  ascending : names.Pairwise (· < ·)
  mem_iff : ∀ name, name ∈ names ↔ P name

section Names

variable {names names' : List String} {P : String → Prop}

theorem Enumerates.unique (h : Enumerates names P) (h' : Enumerates names' P) : names = names' :=
  h.ascending.eq_of_mem_iff h'.ascending fun s => by rw [h.mem_iff, h'.mem_iff]

theorem enumerates_sortedNames (hnodup : names.Nodup) (hmem : ∀ name, name ∈ names ↔ P name) :
    Enumerates (sortedNames names) P := by
  have hperm : (sortedNames names).Perm names := List.mergeSort_perm names _
  have hsorted : (sortedNames names).Pairwise fun s t => decide (s ≤ t) = true :=
    List.pairwise_mergeSort (by simpa using fun _ _ _ => String.le_trans)
      (by simpa using String.le_total) names
  refine ⟨?_, fun name => by rw [hperm.mem_iff, hmem]⟩
  refine hsorted.imp₂ (fun s t hle hne => ?_) (hperm.nodup_iff.mpr hnodup)
  exact lt_of_le_of_ne (of_decide_eq_true hle) hne

end Names

section Checks

variable {entries entries' : List (String × Value)} {form : Form}

theorem nodup_fieldNames (form : Form) : form.fieldNames.Nodup := by
  obtain ⟨kind, relative⟩ := form
  cases kind <;> simp [Form.fieldNames, Form.fields, Kind.fields]

/-- A field of the form for which there is no key. -/
def IsMissing (form : Form) (entries : List (String × Value)) (name : String) : Prop :=
  name ∈ form.fieldNames ∧ name ∉ entries.map Prod.fst

/-- A key that is neither the one for the letter nor a field of the form. -/
def IsUnexpected (form : Form) (entries : List (String × Value)) (key : String) : Prop :=
  key ∈ entries.map Prod.fst ∧ key ≠ "command" ∧ key ∉ form.fieldNames

theorem enumerates_missingNames (form : Form) (entries : List (String × Value)) :
    Enumerates (missingNames form entries) (IsMissing form entries) := by
  refine enumerates_sortedNames ((nodup_fieldNames form).filter _) fun name => ?_
  unfold IsMissing
  grind

theorem enumerates_unexpectedNames (form : Form) (hkeys : (entries.map Prod.fst).Nodup) :
    Enumerates (unexpectedNames form entries) (IsUnexpected form entries) := by
  refine enumerates_sortedNames (hkeys.filter _) fun key => ?_
  simp [IsUnexpected]

/-- The field has an entry, and what stands there fits it. -/
def IsHeld (entries : List (String × Value)) (field : String × FieldSort) : Prop :=
  ∃ v, Value.lookup field.1 entries = some v ∧ Fits field.2 v

theorem not_fits_null (sort : FieldSort) : ¬ Fits sort .null := nofun

theorem exists_decodes_iff {field : String × FieldSort} :
    (∃ p, Decodes entries field p) ↔ IsHeld entries field := by
  unfold Decodes IsHeld
  rcases Value.lookup field.1 entries with _ | v
  · simp only [Option.getD_none, reduceCtorEq, false_and, exists_false, iff_false]
    rintro ⟨p, hp⟩
    exact not_fits_null field.2 (decodeField?_eq_some hp).1
  · simp only [Option.getD_some, Option.some.injEq, exists_eq_left']
    exact ⟨fun ⟨p, hp⟩ => (decodeField?_eq_some hp).1, exists_decodeField?⟩

theorem decodeFields_eq_error_iff {fields : List (String × FieldSort)} {reason : DecodeReason} :
    decodeFields entries fields = .error reason ↔
      ∃ held name sort rest, fields = held ++ (name, sort) :: rest ∧
        (∀ field ∈ held, IsHeld entries field) ∧ ¬ IsHeld entries (name, sort) ∧
        reason = .illTyped name sort := by
  rw [decodeFields_eq_mapM, mapM_eq_error, stopsAt_iff]
  simp only [decodeEntry_eq_ok, decodeEntry_eq_error, exists_decodes_iff, ← not_exists,
    Prod.exists]

end Checks

/-- The entries name the form by its letter. -/
def NamesForm (entries : List (String × Value)) (form : Form) : Prop :=
  Value.lookup "command" entries = some (.text (String.singleton form.letter))

/-- The first of the reasons, in the order of the checks, that there is against a value. -/
inductive FirstReason : Value → DecodeReason → Prop
  | notRecord {v : Value} : (∀ entries, v ≠ .record entries) → FirstReason v .notRecord
  | unknownLetter {entries : List (String × Value)} :
      (∀ form, ¬ NamesForm entries form) →
        FirstReason (.record entries)
          (.unknownLetter ((Value.lookup "command" entries).getD .null))
  | missing {entries : List (String × Value)} {form : Form} {names : List String} :
      NamesForm entries form → Enumerates names (IsMissing form entries) → names ≠ [] →
        FirstReason (.record entries) (.missing form.letter names)
  | unexpected {entries : List (String × Value)} {form : Form} {names : List String} :
      NamesForm entries form → (∀ name, ¬ IsMissing form entries name) →
        Enumerates names (IsUnexpected form entries) → names ≠ [] →
          FirstReason (.record entries) (.unexpected form.letter names)
  | illTyped {entries : List (String × Value)} {form : Form} {name : String} {sort : FieldSort}
      {held rest : List (String × FieldSort)} :
      NamesForm entries form → (∀ name, ¬ IsMissing form entries name) →
        (∀ key, ¬ IsUnexpected form entries key) → form.fields = held ++ (name, sort) :: rest →
          (∀ field ∈ held, IsHeld entries field) → ¬ IsHeld entries (name, sort) →
            FirstReason (.record entries) (.illTyped name sort)

section Reasons

variable {entries entries' : List (String × Value)} {form : Form} {reason : DecodeReason}

theorem Enumerates.eq_nil_iff {names : List String} {P : String → Prop} (h : Enumerates names P) :
    names = [] ↔ ∀ name, ¬ P name := by
  simp only [List.eq_nil_iff_forall_not_mem, h.mem_iff]

theorem firstReason_of_decodeEntries (hkeys : (entries.map Prod.fst).Nodup)
    (h : decodeEntries entries = .error reason) : FirstReason (.record entries) reason := by
  have hmissing (form : Form) := enumerates_missingNames form entries
  have hunexpected (form : Form) := enumerates_unexpectedNames form hkeys
  unfold decodeEntries at h
  split at h
  next hform =>
    obtain rfl := Except.error.inj h
    refine .unknownLetter fun form hnames => ?_
    rw [formOf?_eq_some_iff.mpr hnames] at hform
    cases hform
  next form hform =>
    have hnames : NamesForm entries form := formOf?_eq_some_iff.mp hform
    split at h
    next name names _ hnil =>
      obtain rfl := Except.error.inj h
      exact .missing hnames (hnil ▸ hmissing form) (List.cons_ne_nil _ _)
    next name names hnil hcons =>
      obtain rfl := Except.error.inj h
      exact .unexpected hnames ((hmissing form).eq_nil_iff.mp hnil) (hcons ▸ hunexpected form)
        (List.cons_ne_nil _ _)
    next hnil hnil' =>
      rcases bind_eq_error.mp h with hfields | ⟨ps, hfields, h⟩
      · obtain ⟨held, name, sort, rest, hsplit, hheld, hbad, rfl⟩ :=
          decodeFields_eq_error_iff.mp hfields
        exact .illTyped hnames ((hmissing form).eq_nil_iff.mp hnil)
          ((hunexpected form).eq_nil_iff.mp hnil') hsplit hheld hbad
      · obtain ⟨c, hc⟩ := exists_ofParameters? (decodeFields_eq_ok_iff.mp hfields)
        rw [hc] at h
        cases h

theorem decodeEntries_of_firstReason (hkeys : (entries.map Prod.fst).Nodup)
    (h : FirstReason (.record entries) reason) : decodeEntries entries = .error reason := by
  unfold decodeEntries
  cases h with
  | notRecord hv => exact absurd rfl (hv entries)
  | unknownLetter hnames =>
      have hform : formOf? entries = none :=
        Option.eq_none_iff_forall_ne_some.mpr fun form h => hnames form (formOf?_eq_some_iff.mp h)
      rw [hform]
  | @missing _ form names hnames hall hne =>
      obtain rfl := hall.unique (enumerates_missingNames form entries)
      rw [formOf?_eq_some_iff.mpr hnames]
      dsimp only
      split
      next hcons => rw [hcons]
      next hnil _ => exact absurd hnil hne
      next hnil _ => exact absurd hnil hne
  | @unexpected _ form names hnames hpresent hall hne =>
      obtain rfl := hall.unique (enumerates_unexpectedNames form hkeys)
      have hnil := (enumerates_missingNames form entries).eq_nil_iff.mpr hpresent
      rw [formOf?_eq_some_iff.mpr hnames]
      dsimp only
      rw [hnil]
      split
      next hcons => cases hcons
      next hcons => rw [hcons]
      next hnil => exact absurd hnil hne
  | @illTyped _ form name sort held rest hnames hpresent hknown hsplit hheld hbad =>
      have hnil := (enumerates_missingNames form entries).eq_nil_iff.mpr hpresent
      have hnil' := (enumerates_unexpectedNames form hkeys).eq_nil_iff.mpr hknown
      rw [formOf?_eq_some_iff.mpr hnames]
      dsimp only
      rw [hnil, hnil']
      exact bind_eq_error.mpr (.inl (decodeFields_eq_error_iff.mpr
        ⟨held, name, sort, rest, hsplit, hheld, hbad, rfl⟩))

end Reasons

section Order

variable {entries entries' : List (String × Value)}

/-- Only the keys and what stands under them count. -/
theorem decodeEntries_reordered (hkeys : (entries.map Prod.fst).Nodup)
    (hperm : entries'.Perm entries) : decodeEntries entries' = decodeEntries entries := by
  have hkeys' : (entries'.map Prod.fst).Nodup := (hperm.map Prod.fst).nodup_iff.mpr hkeys
  have hmem (key : String) : key ∈ entries'.map Prod.fst ↔ key ∈ entries.map Prod.fst :=
    (hperm.map Prod.fst).mem_iff
  have hlookup := Value.lookup_perm hkeys hperm
  have hform : formOf? entries' = formOf? entries := by
    unfold formOf?
    rw [hlookup]
  have hmissing (form : Form) : missingNames form entries' = missingNames form entries := by
    have hsame : IsMissing form entries' = IsMissing form entries := by
      funext name
      unfold IsMissing
      rw [hmem]
    exact (hsame ▸ enumerates_missingNames form entries').unique
      (enumerates_missingNames form entries)
  have hunexpected (form : Form) :
      unexpectedNames form entries' = unexpectedNames form entries := by
    have hsame : IsUnexpected form entries' = IsUnexpected form entries := by
      funext key
      unfold IsUnexpected
      rw [hmem]
    exact (hsame ▸ enumerates_unexpectedNames form hkeys').unique
      (enumerates_unexpectedNames form hkeys)
  have hfields (fields : List (String × FieldSort)) :
      decodeFields entries' fields = decodeFields entries fields := by
    have hentry : decodeEntry entries' = decodeEntry entries := by
      funext field
      unfold decodeEntry
      rw [hlookup]
    rw [decodeFields_eq_mapM, decodeFields_eq_mapM, hentry]
  unfold decodeEntries
  simp only [hform, hmissing, hunexpected, hfields, hlookup]

end Order

/-- What comes of a refusal: a fault with the index and the reason, and where one of them holds an
integer too long for a text the mishap of such an integer. -/
structure RefusedFor (index : Value) (reason : DecodeReason) (o : Outcome Command) : Prop where
  shown : reason.holdsLongInteger = false → index.holdsLongInteger = false →
    o = fault (.invalidCommand index reason.message)
  tooLong : reason.holdsLongInteger = true ∨ index.holdsLongInteger = true →
    o = mishap .integerTextTooLong

section Refusals

variable {index v : Value} {reason : DecodeReason}

theorem decode_refusedFor (h : decode? v = .error reason) :
    RefusedFor index reason (decode index v) := by
  unfold decode
  rw [h]
  refine ⟨fun hreason hindex => ?_, fun hlong => ?_⟩
  · simp [refuse, hreason, hindex]
  · exact if_pos (by simpa using hlong)

theorem decode?_eq_error_iff (hkeys : v.HasDistinctKeys) :
    decode? v = .error reason ↔ FirstReason v reason := by
  cases v with
  | record entries =>
      exact ⟨firstReason_of_decodeEntries hkeys, decodeEntries_of_firstReason hkeys⟩
  | _ =>
      constructor
      · rintro ⟨⟩
        exact .notRecord (by simp)
      · rintro ⟨⟩
        rfl

end Refusals

/-- A value is decoded unless there is a reason against it, and is refused for the first one
otherwise. Another order of the entries of a record changes neither the command nor the refusal. -/
theorem refused_for_first_reason (index : Value) {v : Value} (hkeys : v.HasDistinctKeys) :
    ((∃ c, decode index v = .ok c) ↔ ∀ reason, ¬ FirstReason v reason) ∧
      (∀ reason, FirstReason v reason → RefusedFor index reason (decode index v)) ∧
      ∀ entries entries', v = .record entries → entries'.Perm entries →
        decode index (.record entries') = decode index v := by
  refine ⟨?_, fun reason h => decode_refusedFor ((decode?_eq_error_iff hkeys).mpr h), ?_⟩
  · simp only [decode_eq_ok, exists_ok_iff, ne_eq, decode?_eq_error_iff hkeys]
  · rintro entries entries' rfl hperm
    have hdecode : decode? (.record entries') = decode? (.record entries) :=
      decodeEntries_reordered hkeys hperm
    unfold decode
    rw [hdecode]

/-- A relative arc that lacks two fields, has a field that does not belong to it, and has a number
for a flag. -/
def muddledArc : List (String × Value) :=
  [("sweep", .int 1), ("zoom", .null), ("radii", .list []), ("command", .text "a"),
    ("angle", .text "")]

theorem muddledArc_refused :
    decode (.int 3) (.record muddledArc.reverse) =
      fault (.invalidCommand (.int 3) "missing field(s) for 'a': end, large_arc") := by
  have hkeys : (Value.record muddledArc).HasDistinctKeys := by
    change (muddledArc.map Prod.fst).Nodup
    decide
  obtain ⟨-, hrefused, hreordered⟩ := refused_for_first_reason (.int 3) hkeys
  have hnames : Enumerates ["end", "large_arc"] (IsMissing ⟨.arcTo, true⟩ muddledArc) := by
    refine ⟨by decide, fun name => ?_⟩
    simp only [IsMissing, muddledArc, Form.fieldNames, Form.fields, Kind.fields, List.map_cons,
      List.map_nil]
    grind
  have hform : NamesForm muddledArc ⟨.arcTo, true⟩ := rfl
  have hfirst : FirstReason (.record muddledArc) (.missing 'a' ["end", "large_arc"]) :=
    .missing hform hnames (List.cons_ne_nil _ _)
  have hindex : (Value.int 3).holdsLongInteger = false := by decide +kernel
  rw [hreordered _ _ rfl muddledArc.reverse_perm, (hrefused _ hfirst).shown rfl hindex]
  rfl

/-- Not every refusal is a fault: an integer too long for a text cannot be shown. -/
theorem not_every_refusal_is_fault :
    ¬ ∀ (index v : Value) (f : Failure), decode index v = .error f →
      ∃ reason, f = .fault (.invalidCommand index reason) := by
  intro h
  have hmishap (i : ℤ) (hi : Layout.isTooLong i = true) :
      decode .null (.record [("command", .int i)]) = mishap .integerTextTooLong := by
    have hreason : decode? (.record [("command", .int i)]) = .error (.unknownLetter (.int i)) := rfl
    exact (decode_refusedFor hreason).tooLong (.inl hi)
  have hlong : Layout.isTooLong (10 ^ 4300) = true := by decide +kernel
  obtain ⟨reason, hreason⟩ := h _ _ _ (hmishap _ hlong)
  cases hreason

end Command

end VectorPath
