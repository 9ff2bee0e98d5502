import VectorPath.Proofs.Document.Loading
import VectorPath.Proofs.Json.Newlines

/-!
# Files and standard input

The text of a file is read with unified line ends and that of standard input as it is. Both give the
same commands, or fail in the same way: for the same item with the same reason if it is an item that
is refused. Only the message about a whole document differs, which names its source and the position
of the fault.
-/

namespace VectorPath.Document

/-- What the same text comes to when it is read from two sources. -/
inductive SameReading : Outcome (List Command) → Outcome (List Command) → Prop
  | loaded (cs : List Command) : SameReading (.ok cs) (.ok cs)
  | command (index : Value) (reason : String) :
      SameReading (fault (.invalidCommand index reason)) (fault (.invalidCommand index reason))
  | document (place place' reason reason' : String) :
      SameReading (fault (.document place reason)) (fault (.document place' reason'))
  | mishap (m : Mishap) : SameReading (VectorPath.mishap m) (VectorPath.mishap m)

theorem decode_sameFailure {index v : Value} {failure : Failure}
    (h : Command.decode index v = .error failure) :
    SameReading (.error failure) (.error failure) := by
  unfold Command.decode at h
  split at h
  next => cases h
  next reason _ =>
    unfold Command.refuse at h
    split_ifs at h
    · obtain rfl := Except.error.inj h
      exact .mishap _
    · obtain rfl := Except.error.inj h
      exact .command index reason.message

theorem ofValue_sameReading (source source' : String) (v : Value) :
    SameReading (ofValue source v) (ofValue source' v) := by
  cases v with
  | list items =>
      change SameReading (decodeItems items) (decodeItems items)
      rcases h : decodeItems items with failure | cs
      · obtain ⟨⟨item, i⟩, -, hfail⟩ := exists_mem_of_stopsAt (mapM_eq_error.mp h)
        exact decode_sameFailure hfail
      · exact .loaded cs
  | _ => exact .document ..

theorem ofText_sameReading [Depth] (source source' text : String) :
    SameReading (ofText source (Text.withUnifiedNewlines text)) (ofText source' text) := by
  have halike := Json.parse_alike text.toList
  have htext : (Text.withUnifiedNewlines text).toList = Text.unifyNewlines text.toList :=
    String.toList_ofList
  unfold ofText
  rw [htext]
  generalize Json.parse text.toList = r at halike ⊢
  generalize Json.parse (Text.unifyNewlines text.toList) = r' at halike ⊢
  cases halike with
  | read v => exact ofValue_sameReading source source' v
  | @failed e e' he =>
      cases e with
      | nestedTooDeep container =>
          cases e' with
          | nestedTooDeep container' =>
              obtain rfl := Option.some.inj he
              exact .mishap (.nestedTooDeep container)
          | _ => cases he
      | _ =>
          cases e' with
          | nestedTooDeep container => cases he
          | _ => exact .document ..

/-- A text is read from a file as from standard input. -/
theorem file_and_input_agree [Depth] {files : Files} {place : Place} {text : String}
    (hplace : place ≠ Place.standardInput) (hnul : place.hasNul = false)
    (hbytes : files.readBytes place = .ok (Text.encodeUtf8 text)) (input : String)
    (files' : Files) :
    SameReading (read files input place) (read files' text Place.standardInput) := by
  have htext : textOf files place = .ok (Text.withUnifiedNewlines text) := by
    unfold textOf
    simp [hnul, hbytes, Text.decodeUtf8_encodeUtf8]
  unfold read
  rw [if_neg hplace, if_pos rfl, htext]
  exact ofText_sameReading place.toText inputName text

/-- A line ends with both characters, with either of them and with the wrong one first. -/
def brokenLines : String := "[\r\n\x7b\"command\":\r\"H\",\n\"x\": -1\n\r\x7d]"

open scoped Depth in
theorem brokenLines_agree :
    SameReading (read (sampleSession (Text.encodeUtf8 brokenLines)).files "" samplePlace)
      (read ⟨[], []⟩ brokenLines Place.standardInput) :=
  file_and_input_agree (by decide) (by decide +kernel) (readBytes_sample _) "" ⟨[], []⟩

end VectorPath.Document
