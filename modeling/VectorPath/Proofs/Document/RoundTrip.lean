import VectorPath.Proofs.Command.Refusal
import VectorPath.Proofs.Command.RoundTrip
import VectorPath.Proofs.Document.Writing
import VectorPath.Proofs.Json.Spelling

/-!
# Reading a written document

A text of the array of serialized commands may order the keys of a record and set blanks as it
likes, because the decoder looks at nothing but the values of the keys. The reader gives the
commands themselves back if every field holds what its sort asks for.
-/

namespace VectorPath

namespace Command

section Order

variable {c d : Command} {entries : List (String × Value)}

theorem nodup_keys_toRecord (c : Command) : (c.toRecord.map Prod.fst).Nodup := by
  rw [keys_toRecord, List.nodup_cons]
  exact ⟨fun h => ne_command_of_mem h rfl, nodup_fieldNames c.form⟩

theorem decodeEntries_perm (h : entries.Perm c.toRecord) :
    decodeEntries entries = .ok d ↔ d = c ∧ c.IsProper := by
  rw [decodeEntries_reordered (nodup_keys_toRecord c) h, decodeEntries_toRecord_iff]

end Order

section Numbers

variable {c : Command}

theorem short_of_hasText {v : Value} (hv : v.isNumber = true) (h : v.HasText) :
    v.holdsLongInteger = false := by
  obtain ⟨n, rfl⟩ := Value.isNumber_iff.mp hv
  obtain ⟨m, hm, htext⟩ := h
  obtain rfl := Option.some.inj hm
  cases n with
  | int i => exact htext
  | float x => rfl

theorem short_serialized {p : Parameter} (hp : p.IsProper) (h : ∀ v ∈ p.numbers, v.HasText) :
    (serialized p.toValue).holdsLongInteger = false := by
  cases p with
  | point p =>
      have hx := short_of_hasText hp.1 (h p.x (List.mem_cons_self ..))
      have hy := short_of_hasText hp.2 (h p.y (List.mem_cons_of_mem _ (List.mem_cons_self ..)))
      change (Value.list [p.x, p.y]).holdsLongInteger = false
      simp [Value.holdsLongInteger, Value.anyLongInteger, hx, hy]
  | number v =>
      obtain ⟨n, rfl⟩ := Value.isNumber_iff.mp hp
      exact short_of_hasText hp (h _ (List.mem_cons_self ..))
  | flag v =>
      obtain ⟨b, rfl⟩ := hp
      rfl

theorem short_toRecord (hproper : c.IsProper) (htexts : c.HasNumberTexts) :
    ∀ entry ∈ c.toRecord, entry.2.holdsLongInteger = false := by
  intro entry hentry
  rcases List.mem_cons.mp hentry with rfl | hentry
  · rfl
  · rw [← List.map_uncurry_zip_eq_zipWith] at hentry
    obtain ⟨⟨name, p⟩, hmem, rfl⟩ := List.mem_map.mp hentry
    have hp : p ∈ c.parameters := (List.of_mem_zip hmem).2
    exact short_serialized (hproper p hp) fun v hv =>
      htexts v (List.mem_flatMap.mpr ⟨p, hp, hv⟩)

end Numbers

end Command

namespace Document

/-- The record of a command with its keys in any order. -/
def RecordOf (c : Command) (item : Value) : Prop :=
  ∃ entries, item = .record entries ∧ entries.Perm c.toRecord

/-- A text of the array of records of the commands, with any blanks between the tokens. -/
def Spelled (cs : List Command) (text : List Char) : Prop :=
  ∃ items, List.Forall₂ RecordOf cs items ∧ Json.Padded (Json.Spells 3) (.list items) text

variable {c : Command} {cs : List Command} {item : Value}

theorem itemOf_recordOf (h : RecordOf c item) (hproper : c.IsProper) : ItemOf item c := by
  obtain ⟨entries, rfl, hperm⟩ := h
  exact ⟨entries, rfl, (Command.decodeEntries_perm hperm).mpr ⟨rfl, hproper⟩⟩

theorem short_recordOf (h : RecordOf c item) (hproper : c.IsProper) (htexts : c.HasNumberTexts) :
    item.holdsLongInteger = false := by
  obtain ⟨entries, rfl, hperm⟩ := h
  rw [Value.holdsLongInteger, Json.anyLongEntry_eq, List.any_eq_false]
  intro entry hentry
  simp [Command.short_toRecord hproper htexts entry (hperm.mem_iff.mp hentry)]

/-- The commands come back in order with the values of their fields: integers and binary64 numbers
stay apart, zero keeps its sign and not-a-number stays what it is. -/
theorem spelled_document_is_read [Depth] (source : String) {text : String}
    (htext : Spelled cs text.toList) (hproper : ∀ c ∈ cs, c.IsProper)
    (htexts : ∀ c ∈ cs, c.HasNumberTexts) : ofText source text = .ok cs := by
  obtain ⟨items, hitems, hspelled⟩ := htext
  have hrecords := (List.forall₂_and_left cs items).mpr
    ⟨fun c hc => And.intro (hproper c hc) (htexts c hc), hitems⟩
  have hdecode : List.Forall₂ ItemOf items cs :=
    (hrecords.imp fun c item h => itemOf_recordOf h.2 h.1.1).flip
  have hshort : (Value.list items).holdsLongInteger = false := by
    rw [Value.holdsLongInteger, Json.anyLongInteger_eq, List.any_eq_false]
    intro item hitem
    obtain ⟨c, -, ⟨hproper, htexts⟩, hrecord⟩ := exists_left_of_forall₂ hrecords item hitem
    simp [short_recordOf hrecord hproper htexts]
  exact ofText_eq_ok_iff.mpr
    ⟨items, Json.parse_spelled hspelled Depth.three_le_brackets hshort,
      decodeItems_eq_ok_iff.mpr hdecode⟩

/-- A record with its letter behind its point, a blank of every sort and an escape. -/
def scattered : String :=
  "\n[ \x7b\"point\": [NaN,\t-0.0] , \"\\u0063ommand\":\"m\"\x7d]\r\n"

def scatteredMove : Command := ⟨true, .moveTo ⟨.float .nan, .float (.zero true)⟩⟩

def scatteredPoint : Value := .list [.float .nan, .float (.zero true)]

def scatteredEntries : List (String × Value) := [("point", scatteredPoint), ("command", .text "m")]

theorem scatteredEntries_perm : scatteredEntries.Perm scatteredMove.toRecord := List.Perm.swap ..

open Json in
theorem scattered_spelled : Spelled [scatteredMove] scattered.toList := by
  have hpoint : ContainerText (Spells 0) scatteredPoint _ :=
    .list (.cons (.mk [] [] (by decide) (by decide) (.number (.float .nan)))
      (.single (.mk ['\t'] [] (by decide) (by decide) (.number (.float (.zero true))))))
  have hname : QuotedText "point" _ :=
    (@charsText_self ['p', 'o', 'i', 'n', 't'] (by decide)).quoted
  have hunit : UnitText 'c'.toNat _ := @UnitText.mk '0' '0' '6' '3' 0 0 6 3 rfl rfl rfl rfl
  have hkey : QuotedText "command" _ :=
    (CharsText.cons (.unit hunit)
      (@charsText_self ['o', 'm', 'm', 'a', 'n', 'd'] (by decide))).quoted
  have hletter : QuotedText "m" _ := (@charsText_self ['m'] (by decide)).quoted
  have hfirst : MemberText (Spells 1) ("point", scatteredPoint) _ :=
    .mk [] [' '] (by decide) (by decide) hname (.inr hpoint)
  have hsecond : MemberText (Spells 1) ("command", .text "m") _ :=
    .mk [] [] (by decide) (by decide) hkey (.inl (.text hletter))
  have hrecord : ContainerText (Spells 1) (.record scatteredEntries) _ :=
    .record (by decide) (.cons (.mk [] [' '] (by decide) (by decide) hfirst)
      (.single (.mk [' '] [] (by decide) (by decide) hsecond)))
  have hitems : ContainerText (Spells 2) (.list [.record scatteredEntries]) _ :=
    .list (.single (.mk [' '] [] (by decide) (by decide) (.inr hrecord)))
  have htext : Padded (Spells 3) (.list [.record scatteredEntries]) _ :=
    .mk ['\n'] ['\r', '\n'] (by decide) (by decide) (.inr hitems)
  refine ⟨[.record scatteredEntries], .cons ⟨_, rfl, scatteredEntries_perm⟩ .nil, ?_⟩
  convert htext using 1
  decide +kernel

open scoped Depth in
theorem scattered_is_read : ofText "" scattered = .ok [scatteredMove] := by
  refine spelled_document_is_read "" scattered_spelled ?_ ?_
  · intro c hc p hp
    obtain rfl := List.mem_singleton.mp hc
    obtain rfl := List.mem_singleton.mp hp
    exact ⟨rfl, rfl⟩
  · intro c hc v hv
    obtain rfl := List.mem_singleton.mp hc
    rcases List.mem_pair.mp hv with rfl | rfl
    · exact Value.hasText_float _
    · exact Value.hasText_float _

end Document

end VectorPath
