import VectorPath.Proofs.Document.Items
import VectorPath.Proofs.Processor.Calls
import VectorPath.Proofs.Text.Newlines
import VectorPath.Proofs.Text.Utf8

/-!
# How loading a document fails

A document that cannot be loaded is a fault of the document or of one of its items, which is
recorded, unless the file is not text at all, has a name that no file can have, or nests deeper than
the reader goes: these are mishaps, which leave no trace.
-/

namespace VectorPath

section Newlines

open Json

theorem nesting_unifyNewlines (cs : List Char) : nesting (Text.unifyNewlines cs) = nesting cs := by
  unfold nesting
  generalize Standing.outside = s
  generalize 0 = n
  fun_induction Text.unifyNewlines cs generalizing s n with
  | case1 => rfl
  | case2 rest ih => cases s <;> simp [nestingFrom, Standing.next, Standing.opened, ih]
  | case3 rest _ ih => cases s <;> simp [nestingFrom, Standing.next, Standing.opened, ih]
  | case4 c rest _ _ ih => simp only [nestingFrom, ih]

end Newlines

namespace Document

/-- A text that fits into memory and does not nest deeper than the reader goes. -/
structure Readable [Depth] (text : String) : Prop where
  length : text.length < 2 ^ 63
  nesting : Json.nesting text.toList ≤ Depth.brackets

/-- Standard input with a readable text, or a place with a name that a file can have, where any file
there is holds a readable text. -/
def Loadable [Depth] (files : Files) (input : String) (place : Place) : Prop :=
  if place = Place.standardInput then Readable input
  else place.hasNul = false ∧ ∀ bytes, files.readBytes place = .ok bytes →
    ∃ text, bytes = Text.encodeUtf8 text ∧ Readable text

/-- A result, or one of the two faults that loading promises. -/
inductive AsPromised {α : Type} : Outcome α → Prop
  | loaded (a : α) : AsPromised (.ok a)
  | document (place reason : String) : AsPromised (fault (.document place reason))
  | command (i : ℤ) (reason : String) : AsPromised (fault (.invalidCommand (.int i) reason))

theorem decodeItems_asPromised {items : List Value}
    (hlength : items.length ≤ 10 ^ Layout.digitLimit)
    (hshort : ∀ item ∈ items, item.holdsLongInteger = false) :
    AsPromised (decodeItems items) := by
  rcases h : decodeItems items with f | cs
  · obtain ⟨i, reason, -, rfl⟩ := (decodeItems_eq_error_iff hlength hshort).mp h
    exact .command i reason
  · exact .loaded cs

section Reading

variable [Depth] {files : Files} {input : String} {place : Place} {cs : List Command}

theorem ofText_asPromised (source : String) {text : String} (h : Readable text) :
    AsPromised (ofText source text) := by
  by_cases hlist : ∃ items, Json.parse text.toList = .ok (.list items)
  · obtain ⟨items, hparse⟩ := hlist
    rw [ofText_of_parse_list hparse]
    exact decodeItems_asPromised (length_items_le h.length hparse) (short_of_parse hparse)
  · obtain ⟨reason, hreason⟩ := ofText_of_not_list source (not_exists.mp hlist) h.nesting
    rw [hreason]
    exact .document source reason

theorem readable_unified {text : String} (h : Readable text) :
    Readable (Text.withUnifiedNewlines text) := by
  have hlist : (Text.withUnifiedNewlines text).toList = Text.unifyNewlines text.toList :=
    String.toList_ofList
  constructor
  · rw [← String.length_toList, hlist]
    have hle := Text.length_unifyNewlines_le text.toList
    rw [String.length_toList] at hle
    exact hle.trans_lt h.length
  · rw [hlist, nesting_unifyNewlines]
    exact h.nesting

theorem textOf_cases (hnul : place.hasNul = false)
    (hbytes : ∀ bytes, files.readBytes place = .ok bytes →
      ∃ text, bytes = Text.encodeUtf8 text ∧ Readable text) :
    (∃ reason, textOf files place = fault (.document place.toText reason)) ∨
      ∃ text, textOf files place = .ok text ∧ Readable text := by
  unfold textOf
  rw [hnul]
  rcases hread : files.readBytes place with refusal | bytes
  · exact .inl ⟨refusal.reason, rfl⟩
  · obtain ⟨text, rfl, hreadable⟩ := hbytes bytes hread
    refine .inr ⟨Text.withUnifiedNewlines text, ?_, readable_unified hreadable⟩
    simp [Text.decodeUtf8_encodeUtf8]

theorem read_asPromised (h : Loadable files input place) :
    AsPromised (read files input place) := by
  unfold Loadable at h
  unfold read
  split_ifs at h ⊢
  · exact ofText_asPromised inputName h
  · rcases textOf_cases h.1 h.2 with ⟨reason, htext⟩ | ⟨text, htext, hreadable⟩
    · rw [htext]
      exact .document _ _
    · rw [htext]
      exact ofText_asPromised place.toText hreadable

theorem exists_ofText_of_read (h : read files input place = .ok cs) :
    ∃ source text, ofText source text = .ok cs := by
  unfold read at h
  split_ifs at h
  · exact ⟨inputName, input, h⟩
  · obtain ⟨text, -, h⟩ := bind_eq_ok.mp h
    exact ⟨place.toText, text, h⟩

theorem commands_fault_of_ofText {source text : String} (h : ofText source text = .ok cs)
    (writing : WritingSettings) {failure : Failure}
    (hfail : writing.commands cs = .error failure) : ∃ f, failure = .fault f := by
  obtain ⟨precision, policy⟩ := writing
  obtain ⟨path, hpath⟩ := written_of_ofText h precision
  cases policy with
  | passThrough =>
      rw [hpath] at hfail
      cases hfail
  | reject =>
      have hreject := rejection_of_passThrough hpath
      rw [hfail] at hreject
      cases hreject with
      | first => exact ⟨_, rfl⟩

end Reading

/-- Under a condition that rules out the mishaps of a file, a document is loaded or fails with one
of the two promised faults, and every failure to write it is recorded in the statistics. -/
theorem loading_fails_as_promised [Depth] (p : Processor) (s : Session) (place : Place)
    (h : Loadable s.files s.input place) :
    AsPromised (read s.files s.input place) ∧
      ∀ failure, (p.encodeDocument s place).outcome = .error failure →
        ∃ f, failure = .fault f ∧
          (p.encodeDocument s place).processor.statistics =
            p.statistics.failed place.toText f := by
  refine ⟨read_asPromised h, fun failure hfail => ?_⟩
  unfold Processor.encodeDocument at hfail ⊢
  rw [Processor.encodeLoaded_eq] at hfail ⊢
  have hwritten : Request.writtenLoaded p.writing (read s.files s.input place) =
      .error failure := by
    unfold Processor.ending at hfail
    rcases ho : Request.writtenLoaded p.writing (read s.files s.input place) with f | pair
    · rw [ho] at hfail
      exact congrArg _ (Except.error.inj hfail)
    · rw [ho] at hfail
      cases hfail
  -- Either the document could not be loaded, or its commands could not be written.
  obtain ⟨f, rfl⟩ : ∃ f, failure = .fault f := by
    rcases bind_eq_error.mp hwritten with hload | ⟨cs, hload, hcommands⟩
    · have hpromised := read_asPromised h
      rw [hload] at hpromised
      cases hpromised with
      | document | command => exact ⟨_, rfl⟩
    · obtain ⟨source, text, htext⟩ := exists_ofText_of_read hload
      exact commands_fault_of_ofText htext p.writing (bind_pure_eq_error.mp hcommands)
  refine ⟨f, rfl, ?_⟩
  rw [hwritten]
  rfl

def samplePlace : Place := ⟨"", ["d.json"]⟩

/-- A session with nothing but a document of some bytes. -/
def sampleSession (bytes : List UInt8) : Session :=
  .start ⟨"", ""⟩ ⟨["w"], [(["w", "d.json"], .bytes bytes)]⟩ ""

theorem readBytes_sample (bytes : List UInt8) :
    (sampleSession bytes).files.readBytes samplePlace = .ok bytes := by
  rfl

open scoped Depth in
/-- A number for an item is a fault of the item. -/
theorem number_fails_as_promised :
    let s := sampleSession (Text.encodeUtf8 "[7]")
    let p : Processor := ⟨{}, {}⟩
    ∃ f, (p.encodeDocument s samplePlace).outcome = fault f ∧
      (p.encodeDocument s samplePlace).processor.statistics =
        p.statistics.failed samplePlace.toText f := by
  intro s p
  have hloadable : Loadable s.files s.input samplePlace := by
    refine (if_neg (by decide)).mpr ⟨by decide +kernel, fun bytes hbytes => ⟨"[7]", ?_, ?_⟩⟩
    · rw [readBytes_sample] at hbytes
      exact (Except.ok.inj hbytes).symm
    · exact ⟨by decide +kernel, by decide +kernel⟩
  have hfail : (p.encodeDocument s samplePlace).outcome.toBool = false := by decide +kernel
  rcases houtcome : (p.encodeDocument s samplePlace).outcome with failure | text
  · obtain ⟨f, rfl, hstatistics⟩ :=
      (loading_fails_as_promised p s samplePlace hloadable).2 failure houtcome
    exact ⟨f, rfl, hstatistics⟩
  · rw [houtcome] at hfail
    cases hfail

open scoped Depth in
/-- A file of one byte that begins no character is neither loaded nor a fault. -/
theorem not_every_loading_as_promised :
    ¬ ∀ files input place, AsPromised (read files input place) := by
  intro h
  have hbyte := h (sampleSession [0xff]).files "" samplePlace
  have hmishap : read (sampleSession [0xff]).files "" samplePlace =
      mishap (.undecodable ⟨0, [0xff], .invalidStart⟩) := by
    rfl
  rw [hmishap] at hbyte
  cases hbyte

end Document

end VectorPath
