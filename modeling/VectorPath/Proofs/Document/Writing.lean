import VectorPath.Document
import VectorPath.Proofs.Command.Decoding
import VectorPath.Proofs.Json.Scanning
import VectorPath.Proofs.Path.Letters

/-!
# Documents that are read can be written

What the reader and the decoder let into a number field has a text: the reader refuses a numeral
with more digits than a text may have, and the decoder takes nothing but numbers. So every document
that is read has a path text, with a command for every item of the array.
-/

namespace VectorPath

theorem Value.short_lookup {entries : List (String × Value)}
    (h : Value.anyLongEntry entries = false) (key : String) :
    ((Value.lookup key entries).getD .null).holdsLongInteger = false := by
  rcases hv : Value.lookup key entries with _ | v
  · rfl
  · rw [Json.anyLongEntry_eq, List.any_eq_false] at h
    simpa using h _ (Value.mem_of_lookup hv)

theorem Value.hasText_of_short {n : Number} (h : (Value.number n).holdsLongInteger = false) :
    (Value.number n).HasText := by
  refine ⟨n, rfl, ?_⟩
  cases n with
  | int i => exact h
  | float x => trivial

namespace Command

section Numbers

variable {entries : List (String × Value)} {c : Command}

theorem hasText_of_decodeField? {sort : FieldSort} {v : Value} {p : Parameter}
    (h : decodeField? sort v = some p) (hv : v.holdsLongInteger = false) :
    ∀ w ∈ p.numbers, w.HasText := by
  cases (decodeField?_eq_some h).1 with
  | list x y | tuple x y =>
      obtain rfl : Parameter.point ⟨.number x, .number y⟩ = p := Option.some.inj h
      simp only [Value.holdsLongInteger, Value.anyLongInteger, Bool.or_eq_false_iff] at hv
      intro w hw
      rcases List.mem_pair.mp hw with rfl | rfl
      · exact Value.hasText_of_short hv.1
      · exact Value.hasText_of_short hv.2.1
  | number n =>
      obtain rfl : Parameter.number (.number n) = p := Option.some.inj h
      intro w hw
      obtain rfl := List.mem_singleton.mp hw
      exact Value.hasText_of_short hv
  | flag b =>
      obtain rfl : Parameter.flag (.bool b) = p := Option.some.inj h
      simp [Parameter.numbers]

theorem hasNumberTexts_of_decodeEntries (h : decodeEntries entries = .ok c)
    (hentries : Value.anyLongEntry entries = false) : c.HasNumberTexts := by
  obtain ⟨-, -, -, hfields⟩ := decodeEntries_eq_ok_iff.mp h
  intro v hv
  obtain ⟨p, hp, hv⟩ := List.mem_flatMap.mp hv
  obtain ⟨field, -, hdecodes⟩ := exists_left_of_forall₂ hfields p hp
  exact hasText_of_decodeField? hdecodes (Value.short_lookup hentries field.1) v hv

end Numbers

end Command

namespace Document

/-- The item of an array that names the command with a letter. -/
def NamesLetter (item : Value) (letter : Char) : Prop :=
  ∃ entries, item = .record entries ∧
    Value.lookup "command" entries = some (.text (String.singleton letter))

/-- The item of an array that a command is decoded from. -/
def ItemOf (item : Value) (c : Command) : Prop :=
  ∃ entries, item = .record entries ∧ Command.decodeEntries entries = .ok c

variable {source text : String} {items : List Value} {cs : List Command}

theorem ofText_eq_ok_iff [Depth] :
    ofText source text = .ok cs ↔
      ∃ items, Json.parse text.toList = .ok (.list items) ∧ decodeItems items = .ok cs := by
  unfold ofText
  rcases Json.parse text.toList with e | v
  · cases e <;> simp [fault, mishap]
  · cases v <;> simp [ofValue, fault]

theorem decodeItems_eq_ok_iff :
    decodeItems items = .ok cs ↔ List.Forall₂ ItemOf items cs := by
  unfold decodeItems
  rw [mapM_eq_ok]
  have hitems := List.zipIdx_map_fst 0 items
  constructor
  · intro h
    rw [← hitems, List.forall₂_map_left_iff]
    exact h.imp fun item c hc => Command.decode_eq_ok_iff.mp hc
  · intro h
    rw [← hitems, List.forall₂_map_left_iff] at h
    exact h.imp fun item c hc => Command.decode_eq_ok_iff.mpr hc

theorem short_of_parse [Depth] (h : Json.parse text.toList = .ok (.list items)) :
    ∀ item ∈ items, item.holdsLongInteger = false := by
  have hshort : Value.anyLongInteger items = false := Json.parse_holdsLongInteger h
  rw [Json.anyLongInteger_eq, List.any_eq_false] at hshort
  exact fun item hitem => Bool.eq_false_of_not_eq_true (hshort item hitem)

theorem hasNumberTexts_of_ofText [Depth] (h : ofText source text = .ok cs) :
    ∀ c ∈ cs, c.HasNumberTexts := by
  obtain ⟨items, hparse, hdecode⟩ := ofText_eq_ok_iff.mp h
  intro c hc
  obtain ⟨item, hitem, entries, rfl, hentries⟩ :=
    exists_left_of_forall₂ (decodeItems_eq_ok_iff.mp hdecode) c hc
  exact Command.hasNumberTexts_of_decodeEntries hentries (short_of_parse hparse _ hitem)

theorem written_of_ofText [Depth] (h : ofText source text = .ok cs) (precision : Option (Fin 16)) :
    ∃ path, WritingSettings.commands ⟨precision, .passThrough⟩ cs = .ok path := by
  have htexts := hasNumberTexts_of_ofText h
  have hnumbers : ∀ c ∈ cs, c.HasNumbers := fun c hc => Command.hasNumbers (htexts c hc)
  exact (commands_writtenExactlyIf rfl hnumbers).written htexts

theorem namesLetter_of_itemOf {item : Value} {c : Command} (h : ItemOf item c) :
    NamesLetter item c.letter := by
  obtain ⟨entries, rfl, hentries⟩ := h
  exact ⟨entries, rfl, (Command.serializes_of_decodeEntries hentries).letter⟩

/-- A document that has been read can be written at every precision. The commands of the text are
those that the items of the array name, in order. Where numbers that are not finite are rejected,
the first of them is the only fault that there can be. -/
theorem read_documents_are_written [Depth] (h : ofText source text = .ok cs) :
    ∃ items, Json.parse text.toList = .ok (.list items) ∧ ∀ precision, ∃ path,
      WritingSettings.pathOf ⟨precision, .passThrough⟩ (.list (cs.map Command.toValue)) =
          .ok path ∧
        List.Forall₂ NamesLetter items (commandLetters path.toList) ∧
        Rejection (cs.flatMap Command.numbers) path
          (WritingSettings.pathOf ⟨precision, .reject⟩ (.list (cs.map Command.toValue))) := by
  obtain ⟨items, hparse, hdecode⟩ := ofText_eq_ok_iff.mp h
  refine ⟨items, hparse, fun precision => ?_⟩
  simp only [WritingSettings.pathOf_toValue]
  obtain ⟨path, hpath⟩ := written_of_ofText h precision
  refine ⟨path, hpath, ?_, rejection_of_passThrough hpath⟩
  rw [letters_of_commands hpath, List.forall₂_map_right_iff]
  exact (decodeItems_eq_ok_iff.mp hdecode).imp fun item c => namesLetter_of_itemOf

/-- A point of a literal past the range and of the word for no number, and a command without
fields. -/
def overflowing : String :=
  "[\x7b\"command\": \"m\", \"point\": [1e999, NaN]\x7d, \x7b\"command\": \"Z\"\x7d]"

open scoped Depth in
theorem overflowing_is_written :
    ∃ cs items path, ofText "" overflowing = .ok cs ∧
      Json.parse overflowing.toList = .ok (.list items) ∧
      WritingSettings.pathOf ⟨some 2, .passThrough⟩ (.list (cs.map Command.toValue)) =
        .ok path ∧
      List.Forall₂ NamesLetter items (commandLetters path.toList) ∧
      Rejection (cs.flatMap Command.numbers) path
        (WritingSettings.pathOf ⟨some 2, .reject⟩ (.list (cs.map Command.toValue))) := by
  have hread : (ofText "" overflowing).toBool = true := by decide +kernel
  obtain ⟨cs, hcs⟩ := exists_ok_of_toBool hread
  obtain ⟨items, hparse, hwritten⟩ := read_documents_are_written hcs
  obtain ⟨path, hpath, hletters, hreject⟩ := hwritten (some 2)
  exact ⟨cs, items, path, hcs, hparse, hpath, hletters, hreject⟩

end Document

end VectorPath
