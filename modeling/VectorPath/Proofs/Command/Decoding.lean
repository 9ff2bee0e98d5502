import Mathlib.Data.List.Forall2
import VectorPath.Command.Decode
import VectorPath.Proofs.Outcome
import VectorPath.Proofs.Path.Tokens

/-!
# What decoding accepts

The decoder goes through its checks one after the other. Taken together they accept the serialized
commands and nothing else, whatever values stand under the keys of the record. What serializing
gives for the decoded command is the record that was read, up to the order of its keys and to
tuples, which are written as lists.
-/

namespace VectorPath

namespace Value

/-- A value as it is written: a tuple becomes a list. -/
def listed : Value → Value
  | .tuple items => .list items
  | v => v

variable {key : String} {v : Value} {entries entries' : List (String × Value)}

theorem lookup_cons (key : String) (entry : String × Value) (rest : List (String × Value)) :
    lookup key (entry :: rest) = if entry.1 = key then some entry.2 else lookup key rest := by
  by_cases h : entry.1 = key <;> simp [lookup, h]

theorem exists_lookup_iff : (∃ v, lookup key entries = some v) ↔ key ∈ entries.map Prod.fst := by
  induction entries with
  | nil => simp [lookup]
  | cons entry rest ih =>
      by_cases h : entry.1 = key
      · simp [lookup_cons, h]
      · simp [lookup_cons, h, ih, Ne.symm h]

theorem mem_of_lookup (h : lookup key entries = some v) : (key, v) ∈ entries := by
  induction entries with
  | nil => simp [lookup] at h
  | cons entry rest ih =>
      rw [lookup_cons] at h
      split_ifs at h with hkey
      · rw [← hkey, ← Option.some.inj h]
        exact List.mem_cons_self ..
      · exact List.mem_cons_of_mem entry (ih h)

theorem lookup_eq_some_iff (h : (entries.map Prod.fst).Nodup) :
    lookup key entries = some v ↔ (key, v) ∈ entries := by
  refine ⟨mem_of_lookup, fun hmem => ?_⟩
  induction entries with
  | nil => simp at hmem
  | cons entry entries ih =>
      rw [List.map_cons, List.nodup_cons] at h
      rw [lookup_cons]
      rcases List.mem_cons.mp hmem with rfl | hmem
      · exact if_pos rfl
      · have hkey : key ∈ entries.map Prod.fst := List.mem_map_of_mem hmem
        have hne : entry.1 ≠ key := fun heq => h.1 (heq ▸ hkey)
        rw [if_neg hne, ih h.2 hmem]

theorem lookup_perm (h : (entries.map Prod.fst).Nodup) (hperm : entries'.Perm entries)
    (key : String) : lookup key entries' = lookup key entries := by
  have h' : (entries'.map Prod.fst).Nodup := (hperm.map Prod.fst).nodup_iff.mpr h
  ext v
  rw [lookup_eq_some_iff h', lookup_eq_some_iff h, hperm.mem_iff]

end Value

namespace Command

/-- What stands in a field of a sort. -/
inductive Fits : FieldSort → Value → Prop
  | list (x y : Number) : Fits .point (.list [.number x, .number y])
  | tuple (x y : Number) : Fits .point (.tuple [.number x, .number y])
  | number (n : Number) : Fits .number (.number n)
  | flag (b : Bool) : Fits .flag (.bool b)

/-- The entries of a serialized command of a form: its letter, its fields and no other key. -/
structure Serializes (form : Form) (entries : List (String × Value)) : Prop where
  letter : Value.lookup "command" entries = some (.text (String.singleton form.letter))
  keys : ∀ key, key ≠ "command" →
    ((∃ v, Value.lookup key entries = some v) ↔ key ∈ form.fieldNames)
  fits : ∀ field ∈ form.fields, ∀ v, Value.lookup field.1 entries = some v → Fits field.2 v

section Checks

variable {entries : List (String × Value)} {form : Form}

theorem ofLetter?_eq_some_iff {s : String} :
    Form.ofLetter? s = some form ↔ s = String.singleton form.letter := by
  constructor
  · intro h
    unfold Form.ofLetter? at h
    have hletter : s.toList = [form.letter] := by simpa using List.find?_some h
    rw [← String.toList_inj, hletter, String.toList_singleton]
  · rintro rfl
    exact Form.ofLetter?_letter form

theorem formOf?_eq_some_iff :
    formOf? entries = some form ↔
      Value.lookup "command" entries = some (.text (String.singleton form.letter)) := by
  unfold formOf?
  split
  next s hs => rw [hs, ofLetter?_eq_some_iff, Option.some.injEq, Value.text.injEq]
  next hs =>
    refine ⟨fun h => by simp at h, fun h => absurd h (hs _)⟩

theorem sortedNames_eq_nil_iff {names : List String} : sortedNames names = [] ↔ names = [] := by
  unfold sortedNames
  rw [← List.length_eq_zero_iff, List.length_mergeSort, List.length_eq_zero_iff]

theorem missingNames_eq_nil_iff :
    missingNames form entries = [] ↔
      ∀ name ∈ form.fieldNames, ∃ v, Value.lookup name entries = some v := by
  unfold missingNames
  rw [sortedNames_eq_nil_iff, List.filter_eq_nil_iff]
  simp [Value.exists_lookup_iff]

theorem unexpectedNames_eq_nil_iff :
    unexpectedNames form entries = [] ↔
      ∀ key, key ≠ "command" → (∃ v, Value.lookup key entries = some v) →
        key ∈ form.fieldNames := by
  unfold unexpectedNames
  rw [sortedNames_eq_nil_iff, List.filter_eq_nil_iff]
  simp only [Value.exists_lookup_iff, Bool.and_eq_true, bne_iff_ne, Bool.not_eq_true',
    List.contains_eq_mem, decide_eq_false_iff_not, not_and, not_not]
  exact ⟨fun h key hne hmem => h key hmem hne, fun h key hmem hne => h key hne hmem⟩

theorem decodeField?_eq_some {sort : FieldSort} {v : Value} {p : Parameter}
    (h : decodeField? sort v = some p) :
    Fits sort v ∧ p.sort = sort ∧ serialized p.toValue = v.listed := by
  cases sort with
  | point =>
      obtain ⟨q, hq, rfl⟩ := Option.map_eq_some_iff.mp h
      unfold decodePoint? at hq
      split at hq
      · obtain rfl := Option.some.inj hq
        exact ⟨.list _ _, rfl, rfl⟩
      · obtain rfl := Option.some.inj hq
        exact ⟨.tuple _ _, rfl, rfl⟩
      · simp at hq
  | number =>
      obtain ⟨n, hn, rfl⟩ := Option.map_eq_some_iff.mp h
      unfold decodeNumber? at hn
      split at hn
      · obtain rfl := Option.some.inj hn
        exact ⟨.number _, rfl, rfl⟩
      · simp at hn
  | flag =>
      unfold decodeField? at h
      dsimp only at h
      split at h
      · obtain rfl := Option.some.inj h
        exact ⟨.flag _, rfl, rfl⟩
      · simp at h

theorem exists_decodeField? {sort : FieldSort} {v : Value} (h : Fits sort v) :
    ∃ p, decodeField? sort v = some p := by
  cases h <;> exact ⟨_, rfl⟩

/-- A field with what its entry denotes. -/
def Decodes (entries : List (String × Value)) (field : String × FieldSort) (p : Parameter) :
    Prop :=
  decodeField? field.2 ((Value.lookup field.1 entries).getD .null) = some p

def decodeEntry (entries : List (String × Value)) (field : String × FieldSort) :
    Except DecodeReason Parameter :=
  match decodeField? field.2 ((Value.lookup field.1 entries).getD .null) with
  | none => .error (.illTyped field.1 field.2)
  | some p => .ok p

variable {fields : List (String × FieldSort)} {ps : List Parameter}

theorem decodeEntry_eq_ok {field : String × FieldSort} {p : Parameter} :
    decodeEntry entries field = .ok p ↔ Decodes entries field p := by
  unfold decodeEntry Decodes
  split <;> simp [*]

theorem decodeEntry_eq_error {field : String × FieldSort} {reason : DecodeReason} :
    decodeEntry entries field = .error reason ↔
      (∀ p, ¬ Decodes entries field p) ∧ reason = .illTyped field.1 field.2 := by
  unfold decodeEntry Decodes
  split <;> simp [*, eq_comm]

theorem decodeFields_eq_mapM (entries : List (String × Value))
    (fields : List (String × FieldSort)) :
    decodeFields entries fields = fields.mapM (decodeEntry entries) := by
  induction fields with
  | nil => rfl
  | cons field fields ih =>
      rw [List.mapM_cons, decodeFields, ih, decodeEntry]
      rcases decodeField? field.2 ((Value.lookup field.1 entries).getD .null) <;> rfl

theorem decodeFields_eq_ok_iff :
    decodeFields entries fields = .ok ps ↔ List.Forall₂ (Decodes entries) fields ps := by
  simp only [decodeFields_eq_mapM, mapM_eq_ok, decodeEntry_eq_ok]

theorem illTyped_of_decodeFields {reason : DecodeReason}
    (h : decodeFields entries fields = .error reason) :
    ∃ name sort, reason = .illTyped name sort := by
  rw [decodeFields_eq_mapM, mapM_eq_error] at h
  obtain ⟨field, -, hfail⟩ := exists_mem_of_stopsAt h
  exact ⟨field.1, field.2, (decodeEntry_eq_error.mp hfail).2⟩

theorem sorts_of_decodes (h : List.Forall₂ (Decodes entries) fields ps) :
    ps.map Parameter.sort = fields.map Prod.snd := by
  induction h with
  | nil => rfl
  | cons hp _ ih => rw [List.map_cons, List.map_cons, ih, (decodeField?_eq_some hp).2.1]

end Checks

end Command

theorem Parameter.sort_eq_point {p : Parameter} : p.sort = .point ↔ ∃ q, p = .point q := by
  cases p <;> simp [Parameter.sort]

theorem Parameter.sort_eq_number {p : Parameter} : p.sort = .number ↔ ∃ v, p = .number v := by
  cases p <;> simp [Parameter.sort]

theorem Parameter.sort_eq_flag {p : Parameter} : p.sort = .flag ↔ ∃ v, p = .flag v := by
  cases p <;> simp [Parameter.sort]

/-- Fields of the sorts of a kind are the fields of a shape. -/
theorem Shape.exists_ofParameters? {kind : Kind} {ps : List Parameter}
    (h : ps.map Parameter.sort = kind.fields.map Prod.snd) :
    ∃ shape, Shape.ofParameters? kind ps = some shape := by
  -- The sorts of a kind fix the constructor of each of its fields.
  cases kind <;>
    simp only [Kind.fields, List.map_cons, List.map_nil, List.map_eq_cons_iff, List.map_eq_nil_iff,
      Parameter.sort_eq_point, Parameter.sort_eq_number, Parameter.sort_eq_flag] at h
  case moveTo | lineTo | smoothQuadraticCurveTo =>
    obtain ⟨_, _, rfl, ⟨p, rfl⟩, rfl⟩ := h
    exact ⟨_, rfl⟩
  case horizontalLineTo | verticalLineTo =>
    obtain ⟨_, _, rfl, ⟨v, rfl⟩, rfl⟩ := h
    exact ⟨_, rfl⟩
  case closePath =>
    obtain rfl := h
    exact ⟨_, rfl⟩
  case smoothCurveTo | quadraticCurveTo =>
    obtain ⟨_, _, rfl, ⟨p, rfl⟩, _, _, rfl, ⟨q, rfl⟩, rfl⟩ := h
    exact ⟨_, rfl⟩
  case curveTo =>
    obtain ⟨_, _, rfl, ⟨p, rfl⟩, _, _, rfl, ⟨q, rfl⟩, _, _, rfl, ⟨r, rfl⟩, rfl⟩ := h
    exact ⟨_, rfl⟩
  case arcTo =>
    obtain ⟨_, _, rfl, ⟨p, rfl⟩, _, _, rfl, ⟨v, rfl⟩, _, _, rfl, ⟨l, rfl⟩, _, _, rfl, ⟨s, rfl⟩,
      _, _, rfl, ⟨q, rfl⟩, rfl⟩ := h
    exact ⟨_, rfl⟩

namespace Command

section Entries

variable {entries : List (String × Value)} {c : Command}

theorem form_parameters_of_ofParameters? {form : Form} {ps : List Parameter}
    (h : ofParameters? form ps = some c) : c.form = form ∧ c.parameters = ps := by
  obtain ⟨shape, hshape, rfl⟩ := Option.map_eq_some_iff.mp h
  obtain ⟨hkind, hparameters⟩ := Shape.parameters_of_ofParameters? hshape
  exact ⟨by unfold Command.form; rw [hkind], hparameters⟩

/-- Everything that decoding a record checks, at once. -/
theorem decodeEntries_eq_ok_iff :
    decodeEntries entries = .ok c ↔
      formOf? entries = some c.form ∧ missingNames c.form entries = [] ∧
        unexpectedNames c.form entries = [] ∧
        List.Forall₂ (Decodes entries) c.form.fields c.parameters := by
  rw [← decodeFields_eq_ok_iff]
  constructor
  · intro h
    unfold decodeEntries at h
    split at h
    next => cases h
    next form hform =>
      split at h
      next => cases h
      next => cases h
      next hmissing hunexpected =>
        obtain ⟨ps, hfields, h⟩ := bind_eq_ok.mp h
        split at h
        next d hd =>
          obtain rfl := Except.ok.inj h
          obtain ⟨rfl, rfl⟩ := form_parameters_of_ofParameters? hd
          exact ⟨hform, hmissing, hunexpected, hfields⟩
        next => cases h
  · rintro ⟨hform, hmissing, hunexpected, hfields⟩
    unfold decodeEntries
    rw [hform]
    simp only [hmissing, hunexpected]
    refine bind_eq_ok.mpr ⟨c.parameters, hfields, ?_⟩
    rw [ofParameters?_parameters]
    rfl

/-- The index of a value serves for messages only. -/
theorem decode_eq_ok {index v : Value} : decode index v = .ok c ↔ decode? v = .ok c := by
  unfold decode
  split
  next d hd => rw [hd, Except.ok.injEq, Except.ok.injEq]
  next reason hreason =>
    rw [hreason]
    unfold refuse
    constructor
    · intro h
      split_ifs at h <;> cases h
    · intro h
      cases h

theorem decode_eq_ok_iff {index v : Value} :
    decode index v = .ok c ↔ ∃ entries, v = .record entries ∧ decodeEntries entries = .ok c := by
  rw [decode_eq_ok]
  cases v with
  | record entries => simp [decode?]
  | _ => simp [decode?]

theorem serializes_of_decodeEntries (h : decodeEntries entries = .ok c) :
    Serializes c.form entries := by
  obtain ⟨hform, hmissing, hunexpected, hfields⟩ := decodeEntries_eq_ok_iff.mp h
  refine ⟨formOf?_eq_some_iff.mp hform, fun key hne => ⟨?_, ?_⟩, ?_⟩
  · exact unexpectedNames_eq_nil_iff.mp hunexpected key hne
  · exact missingNames_eq_nil_iff.mp hmissing key
  · intro field hfield v hv
    obtain ⟨i, hi, rfl⟩ := List.getElem_of_mem hfield
    have hp := hfields.get hi (hfields.length_eq ▸ hi)
    unfold Decodes at hp
    rw [List.get_eq_getElem, hv] at hp
    exact (decodeField?_eq_some hp).1

/-- The fields of a form decode to the fields of a command of that form. -/
theorem exists_ofParameters? {form : Form} {ps : List Parameter}
    (h : List.Forall₂ (Decodes entries) form.fields ps) : ∃ c, ofParameters? form ps = some c := by
  obtain ⟨shape, hshape⟩ := Shape.exists_ofParameters? (sorts_of_decodes h)
  exact ⟨⟨form.relative, shape⟩, by unfold ofParameters?; rw [hshape]; rfl⟩

theorem exists_decodes {fields : List (String × FieldSort)}
    (h : ∀ field ∈ fields, ∃ p, Decodes entries field p) :
    ∃ ps, List.Forall₂ (Decodes entries) fields ps := by
  induction fields with
  | nil => exact ⟨[], .nil⟩
  | cons field fields ih =>
      obtain ⟨p, hp⟩ := h field (List.mem_cons_self ..)
      obtain ⟨ps, hps⟩ := ih fun other hother => h other (List.mem_cons_of_mem field hother)
      exact ⟨p :: ps, .cons hp hps⟩

theorem ne_command_of_mem {form : Form} {name : String} (h : name ∈ form.fieldNames) :
    name ≠ "command" := by
  rintro rfl
  obtain ⟨kind, relative⟩ := form
  cases kind <;> simp [Form.fieldNames, Form.fields, Kind.fields] at h

theorem exists_decodeEntries {form : Form} (h : Serializes form entries) :
    ∃ c, decodeEntries entries = .ok c := by
  have hpresent : ∀ name ∈ form.fieldNames, ∃ v, Value.lookup name entries = some v :=
    fun name hname => (h.keys name (ne_command_of_mem hname)).mpr hname
  obtain ⟨ps, hps⟩ : ∃ ps, List.Forall₂ (Decodes entries) form.fields ps := by
    apply exists_decodes
    intro field hfield
    obtain ⟨v, hv⟩ := hpresent field.1 (List.mem_map_of_mem hfield)
    unfold Decodes
    rw [hv]
    exact exists_decodeField? (h.fits field hfield v hv)
  obtain ⟨c, hc⟩ := exists_ofParameters? hps
  obtain ⟨rfl, rfl⟩ := form_parameters_of_ofParameters? hc
  exact ⟨c, decodeEntries_eq_ok_iff.mpr ⟨formOf?_eq_some_iff.mpr h.letter,
    missingNames_eq_nil_iff.mpr hpresent,
    unexpectedNames_eq_nil_iff.mpr fun key hne => (h.keys key hne).mp, hps⟩⟩

theorem lookup_fields {fields : List (String × FieldSort)} {ps : List Parameter}
    (h : List.Forall₂ (Decodes entries) fields ps) (key : String) :
    Value.lookup key
        (List.zipWith (fun name p => (name, serialized p.toValue)) (fields.map Prod.fst) ps) =
      if key ∈ fields.map Prod.fst then
        some ((Value.lookup key entries).getD .null).listed
      else none := by
  induction h with
  | nil => rfl
  | @cons field p _ _ hp _ ih =>
      rw [List.map_cons, List.zipWith_cons_cons, Value.lookup_cons, ih]
      by_cases hkey : field.1 = key
      · subst hkey
        simp [(decodeField?_eq_some hp).2.2]
      · simp only [if_neg hkey, List.mem_cons, Ne.symm hkey, false_or]

theorem lookup_toRecord (h : decodeEntries entries = .ok c) (key : String) :
    Value.lookup key c.toRecord = (Value.lookup key entries).map Value.listed := by
  have hserialized := serializes_of_decodeEntries h
  obtain ⟨-, -, -, hfields⟩ := decodeEntries_eq_ok_iff.mp h
  unfold toRecord
  rw [Value.lookup_cons]
  split_ifs with hkey
  · rw [← hkey, hserialized.letter]
    rfl
  · have hfound := lookup_fields hfields key
    unfold Form.fieldNames
    rw [hfound]
    split_ifs with hname
    · obtain ⟨v, hv⟩ := (hserialized.keys key (Ne.symm hkey)).mpr hname
      rw [hv]
      rfl
    · rcases hv : Value.lookup key entries with _ | v
      · rfl
      · exact absurd ((hserialized.keys key (Ne.symm hkey)).mp ⟨v, hv⟩) hname

end Entries

/-- A record is decoded exactly if it serializes a command of some form. The command is then of that
form, and serializing it gives the entries of the record. -/
theorem decodes_exactly_serialized (index : Value) (entries : List (String × Value)) :
    ((∃ c, decode index (.record entries) = .ok c) ↔ ∃ form, Serializes form entries) ∧
      ∀ c, decode index (.record entries) = .ok c →
        Serializes c.form entries ∧
          ∀ key, Value.lookup key c.toRecord = (Value.lookup key entries).map Value.listed := by
  have hdecode : ∀ c, decode index (.record entries) = .ok c ↔ decodeEntries entries = .ok c := by
    intro c
    rw [decode_eq_ok_iff]
    simp
  simp only [hdecode]
  refine ⟨⟨?_, ?_⟩, fun c hc => ⟨serializes_of_decodeEntries hc, lookup_toRecord hc⟩⟩
  · rintro ⟨c, hc⟩
    exact ⟨c.form, serializes_of_decodeEntries hc⟩
  · rintro ⟨form, hform⟩
    exact exists_decodeEntries hform

/-- A relative arc with its keys in another order and a tuple for its radii. -/
def tupleArc : List (String × Value) :=
  [("end", .list [.int 0, .float .nan]), ("radii", .tuple [.int 2, .int 1]), ("sweep", .bool true),
    ("command", .text "a"), ("large_arc", .bool false), ("angle", .float (.infinity true))]

theorem tupleArc_decodes :
    ∃ c, decode .null (.record tupleArc) = .ok c ∧ Serializes c.form tupleArc ∧
      ∀ key, Value.lookup key c.toRecord = (Value.lookup key tupleArc).map Value.listed := by
  have hdecode : (decode .null (.record tupleArc)).toBool = true := by decide +kernel
  obtain ⟨c, hc⟩ := exists_ok_of_toBool hdecode
  exact ⟨c, hc, (decodes_exactly_serialized .null tupleArc).2 c hc⟩

end Command

end VectorPath
