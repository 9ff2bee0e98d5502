import VectorPath.Proofs.Command.Decoding

/-!
# Serializing and decoding again

A command can hold any value in a number or flag field and in a coordinate, and serializing changes
the points among these values. Decoding undoes it where every field holds what its sort asks for and
refuses the record of any other command, so no command comes back as a different one.
-/

namespace VectorPath

/-- Numbers for coordinates and number fields and truth values for flags. -/
def Parameter.IsProper : Parameter → Prop
  | .point p => p.x.isNumber = true ∧ p.y.isNumber = true
  | .number v => v.isNumber = true
  | .flag v => ∃ b, v = .bool b

theorem Value.isNumber_iff {v : Value} : v.isNumber = true ↔ ∃ n, v = .number n := by
  cases v <;> simp [Value.isNumber]

namespace Command

def IsProper (c : Command) : Prop := ∀ p ∈ c.parameters, p.IsProper

variable {c d : Command}

theorem decodePoint?_pair {x y : Value} {p : Point} :
    decodePoint? (.list [x, y]) = some p ↔
      p = ⟨x, y⟩ ∧ x.isNumber = true ∧ y.isNumber = true := by
  cases x <;> cases y <;> simp [decodePoint?, Value.isNumber, eq_comm]

theorem decodeNumber?_serialized {v : Value} {n : Number} :
    decodeNumber? (serialized v) = some n ↔ v = .number n := by
  cases v <;> simp [decodeNumber?, serialized]

/-- A field is decoded as itself or not at all. -/
theorem decodeField?_serialized {p q : Parameter} :
    decodeField? p.sort (serialized p.toValue) = some q ↔ q = p ∧ p.IsProper := by
  cases p with
  | point p =>
      change (decodePoint? (.list [p.x, p.y])).map Parameter.point = some q ↔ _
      simp only [Option.map_eq_some_iff, decodePoint?_pair, Parameter.IsProper]
      constructor
      · rintro ⟨_, ⟨rfl, hp⟩, rfl⟩
        exact ⟨rfl, hp⟩
      · rintro ⟨rfl, hp⟩
        exact ⟨p, ⟨rfl, hp⟩, rfl⟩
  | number v =>
      change (decodeNumber? (serialized v)).map (fun n => Parameter.number (.number n)) =
        some q ↔ _
      simp only [Option.map_eq_some_iff, decodeNumber?_serialized, Parameter.IsProper,
        Value.isNumber_iff]
      constructor
      · rintro ⟨n, rfl, rfl⟩
        exact ⟨rfl, n, rfl⟩
      · rintro ⟨rfl, n, rfl⟩
        exact ⟨n, rfl, rfl⟩
  | flag v =>
      cases v <;>
        simp [Parameter.sort, Parameter.toValue, serialized, decodeField?, Parameter.IsProper,
          eq_comm]

/-- A point in a number field becomes a list, which is not taken for a number. -/
example : decodeField? .number (serialized (.point (.int 1) (.int 2))) = none := rfl

theorem keys_toRecord (c : Command) :
    c.toRecord.map Prod.fst = "command" :: c.form.fieldNames := by
  obtain ⟨relative, shape⟩ := c
  cases shape <;> rfl

theorem lookup_toRecord_iff {key : String} :
    (∃ v, Value.lookup key c.toRecord = some v) ↔ key = "command" ∨ key ∈ c.form.fieldNames := by
  rw [Value.exists_lookup_iff, keys_toRecord, List.mem_cons]

/-- The entry of a field holds what stands in the field. -/
structure Entered (entries : List (String × Value)) (field : String × FieldSort) (p : Parameter) :
    Prop where
  sort : field.2 = p.sort
  entry : Value.lookup field.1 entries = some (serialized p.toValue)

/-- No two fields share a name, so each is found under its own. -/
theorem entered_toRecord (c : Command) :
    List.Forall₂ (Entered c.toRecord) c.form.fields c.parameters := by
  obtain ⟨relative, shape⟩ := c
  cases shape <;> repeat' constructor

section Entered

variable {entries : List (String × Value)} {fields : List (String × FieldSort)}
  {ps qs : List Parameter}

theorem decodes_iff_of_entered {field : String × FieldSort} {p q : Parameter}
    (h : Entered entries field p) : Decodes entries field q ↔ q = p ∧ p.IsProper := by
  unfold Decodes
  rw [h.sort, h.entry]
  exact decodeField?_serialized

theorem forall₂_decodes_iff (h : List.Forall₂ (Entered entries) fields ps) :
    List.Forall₂ (Decodes entries) fields qs ↔ qs = ps ∧ ∀ p ∈ ps, p.IsProper := by
  induction h generalizing qs with
  | nil => simp
  | cons hp _ ih =>
      simp only [List.forall₂_cons_left_iff, decodes_iff_of_entered hp, ih, List.forall_mem_cons]
      grind

end Entered

theorem formOf?_toRecord (c : Command) : formOf? c.toRecord = some c.form :=
  formOf?_eq_some_iff.mpr rfl

theorem missingNames_toRecord (c : Command) : missingNames c.form c.toRecord = [] :=
  missingNames_eq_nil_iff.mpr fun _ hname => lookup_toRecord_iff.mpr (.inr hname)

theorem unexpectedNames_toRecord (c : Command) : unexpectedNames c.form c.toRecord = [] :=
  unexpectedNames_eq_nil_iff.mpr fun _ hne hkey => (lookup_toRecord_iff.mp hkey).resolve_left hne

theorem eq_of_form_parameters (hform : d.form = c.form)
    (hparameters : d.parameters = c.parameters) : d = c := by
  have hd := ofParameters?_parameters d
  rw [hform, hparameters, ofParameters?_parameters] at hd
  exact (Option.some.inj hd).symm

theorem decodeEntries_toRecord_iff :
    decodeEntries c.toRecord = .ok d ↔ d = c ∧ c.IsProper := by
  rw [decodeEntries_eq_ok_iff, formOf?_toRecord, Option.some.injEq]
  constructor
  · rintro ⟨hform, -, -, hfields⟩
    rw [← hform, forall₂_decodes_iff (entered_toRecord c)] at hfields
    exact ⟨eq_of_form_parameters hform.symm hfields.1, hfields.2⟩
  · rintro ⟨rfl, hproper⟩
    exact ⟨rfl, missingNames_toRecord d, unexpectedNames_toRecord d,
      (forall₂_decodes_iff (entered_toRecord d)).mpr ⟨rfl, hproper⟩⟩

/-- A record that comes from a command has the right letter and keys, so only the sort of a field
can be wrong. -/
theorem illTyped_of_toRecord {reason : DecodeReason}
    (h : decodeEntries c.toRecord = .error reason) : ∃ name sort, reason = .illTyped name sort := by
  unfold decodeEntries at h
  simp only [formOf?_toRecord, missingNames_toRecord, unexpectedNames_toRecord] at h
  rcases bind_eq_error.mp h with hfields | ⟨ps, hfields, h⟩
  · exact illTyped_of_decodeFields hfields
  · rw [decodeFields_eq_ok_iff, forall₂_decodes_iff (entered_toRecord c)] at hfields
    rw [hfields.1, ofParameters?_parameters] at h
    cases h

/-- What a command serializes to is decoded as the command itself if every field holds what its sort
asks for, and is refused otherwise. -/
theorem decode_toRecord_exactly_proper (c : Command) :
    (∀ d, decode .null (.record c.toRecord) = .ok d ↔ d = c ∧ c.IsProper) ∧
      ((∃ reason, decode .null (.record c.toRecord) = fault (.invalidCommand .null reason)) ↔
        ¬ c.IsProper) := by
  have hok : ∀ d, decode .null (.record c.toRecord) = .ok d ↔ d = c ∧ c.IsProper := by
    intro d
    simp [decode_eq_ok_iff, decodeEntries_toRecord_iff]
  refine ⟨hok, ?_, fun hproper => ?_⟩
  · rintro ⟨reason, hreason⟩ hproper
    rw [(hok c).mpr ⟨rfl, hproper⟩] at hreason
    cases hreason
  · rcases hdecode : decodeEntries c.toRecord with reason | d
    · obtain ⟨name, sort, rfl⟩ := illTyped_of_toRecord hdecode
      refine ⟨(DecodeReason.illTyped name sort).message, ?_⟩
      unfold decode
      simp only [decode?, hdecode]
      rfl
    · exact absurd (decodeEntries_toRecord_iff.mp hdecode).2 hproper

end Command

end VectorPath
