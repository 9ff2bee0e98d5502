import VectorPath.Proofs.Command.Refusal
import VectorPath.Proofs.Document.Writing
import VectorPath.Proofs.Json.Spelling

/-!
# The first item that is refused

A text is read as a whole before any of its items is looked at, so what stands in an array counts
only if the text is one array. Then the items are decoded in order, each as it would be by itself,
and the first one that is refused gives the fault its index and its reason.
-/

namespace VectorPath

namespace Command

variable {entries : List (String × Value)} {reason : DecodeReason}

theorem short_of_decodeEntries (h : decodeEntries entries = .error reason)
    (hentries : Value.anyLongEntry entries = false) : reason.holdsLongInteger = false := by
  unfold decodeEntries at h
  split at h
  next =>
    obtain rfl := Except.error.inj h
    exact Value.short_lookup hentries "command"
  next =>
    split at h
    next =>
      obtain rfl := Except.error.inj h
      rfl
    next =>
      obtain rfl := Except.error.inj h
      rfl
    next =>
      rcases bind_eq_error.mp h with hfields | ⟨ps, -, h⟩
      · obtain ⟨name, sort, rfl⟩ := illTyped_of_decodeFields hfields
        rfl
      · split at h
        next => cases h
        next =>
          obtain rfl := Except.error.inj h
          rfl

theorem short_natCast {i : ℕ} (h : i < 10 ^ Layout.digitLimit) :
    (Value.int i).holdsLongInteger = false := by
  change Layout.isTooLong i = false
  unfold Layout.isTooLong
  rw [Int.natAbs_natCast]
  exact decide_eq_false (Nat.not_le.mpr h)

theorem short_of_decode? {v : Value} (h : decode? v = .error reason)
    (hv : v.holdsLongInteger = false) : reason.holdsLongInteger = false := by
  cases v with
  | record entries => exact short_of_decodeEntries h hv
  | _ =>
      obtain rfl := Except.error.inj h
      rfl

/-- The fault of a value without long integers shows all that it has to show. -/
theorem decode_eq_error_iff {index v : Value} {f : Failure}
    (hindex : index.holdsLongInteger = false) (hv : v.holdsLongInteger = false) :
    decode index v = .error f ↔
      ∃ reason, decode? v = .error reason ∧ f = .fault (.invalidCommand index reason.message) := by
  have hshown {reason : DecodeReason} (hreason : decode? v = .error reason) :
      decode index v = fault (.invalidCommand index reason.message) :=
    (decode_refusedFor hreason).shown (short_of_decode? hreason hv) hindex
  constructor
  · intro h
    rcases hreason : decode? v with reason | c
    · exact ⟨reason, rfl, Except.error.inj (h.symm.trans (hshown hreason))⟩
    · rw [decode_eq_ok.mpr hreason] at h
      cases h
  · rintro ⟨reason, hreason, rfl⟩
    exact hshown hreason

/-- A value is refused at an index for the reason it is refused for by itself. -/
theorem decode_eq_error_iff_alone {index v : Value} {f : Failure}
    (hindex : index.holdsLongInteger = false) (hv : v.holdsLongInteger = false) :
    decode index v = .error f ↔
      ∃ reason, decode .null v = fault (.invalidCommand .null reason) ∧
        f = .fault (.invalidCommand index reason) := by
  have hnull : Value.null.holdsLongInteger = false := rfl
  simp only [fault, decode_eq_error_iff hindex hv, decode_eq_error_iff hnull hv]
  constructor
  · rintro ⟨reason, hreason, rfl⟩
    exact ⟨reason.message, ⟨reason, hreason, rfl⟩, rfl⟩
  · rintro ⟨text, ⟨reason, hreason, htext⟩, rfl⟩
    injection htext with htext
    injection htext with _ htext
    exact ⟨reason, hreason, by rw [htext]⟩

end Command

namespace Document

/-- The item at an index is refused for a reason, and every item before it is decoded. -/
def FirstRefused (items : List Value) (i : ℕ) (reason : String) : Prop :=
  ∃ done item rest, items = done ++ item :: rest ∧ done.length = i ∧
    (∀ earlier ∈ done, ∃ c, Command.decode .null earlier = .ok c) ∧
    Command.decode .null item = fault (.invalidCommand .null reason)

section Items

variable {items : List Value} {f : Failure}

theorem decodeItems_eq_ok_iff_alone {cs : List Command} :
    decodeItems items = .ok cs ↔
      List.Forall₂ (fun item c => Command.decode .null item = .ok c) items cs := by
  simp only [decodeItems_eq_ok_iff, Command.decode_eq_ok_iff]
  rfl

theorem decodeItems_eq_error_iff (hlength : items.length ≤ 10 ^ Layout.digitLimit)
    (hshort : ∀ item ∈ items, item.holdsLongInteger = false) :
    decodeItems items = .error f ↔
      ∃ i reason, FirstRefused items i reason ∧ f = .fault (.invalidCommand (.int i) reason) := by
  have hdecoded (done : List Value) :
      (∀ p ∈ done.zipIdx, ∃ c, Command.decode (.int p.2) p.1 = .ok c) ↔
        ∀ item ∈ done, ∃ c, Command.decode .null item = .ok c := by
    conv_rhs => rw [← List.zipIdx_map_fst 0 done, List.forall_mem_map]
    simp only [Command.decode_eq_ok]
  have hrefused {done rest : List Value} {item : Value} (hsplit : items = done ++ item :: rest) :
      Command.decode (.int done.length) item = .error f ↔
        ∃ reason, Command.decode .null item = fault (.invalidCommand .null reason) ∧
          f = .fault (.invalidCommand (.int done.length) reason) := by
    subst hsplit
    rw [List.length_append, List.length_cons] at hlength
    exact Command.decode_eq_error_iff_alone (Command.short_natCast (by omega))
      (hshort item (by simp))
  unfold decodeItems
  rw [mapM_eq_error, stopsAt_zipIdx]
  constructor
  · rintro ⟨done, item, rest, hsplit, hdone, hfail⟩
    obtain ⟨reason, hreason, rfl⟩ := (hrefused hsplit).mp hfail
    exact ⟨done.length, reason, ⟨done, item, rest, hsplit, rfl, (hdecoded done).mp hdone, hreason⟩,
      rfl⟩
  · rintro ⟨_, reason, ⟨done, item, rest, hsplit, rfl, hdone, hreason⟩, hf⟩
    exact ⟨done, item, rest, hsplit, (hdecoded done).mpr hdone,
      (hrefused hsplit).mpr ⟨reason, hreason, hf⟩⟩

end Items

theorem length_items_le [Depth] {text : String} {items : List Value}
    (hlength : text.length < 2 ^ 63)
    (hparse : Json.parse text.toList = .ok (.list items)) :
    items.length ≤ 10 ^ Layout.digitLimit := by
  have hitems := Json.parse_length hparse
  have hlimit : 2 * 2 ^ 63 + 2 ≤ 10 ^ Layout.digitLimit := by decide +kernel
  rw [String.length_toList] at hitems
  exact le_trans (by omega) hlimit

theorem ofText_of_parse_list [Depth] {source text : String} {items : List Value}
    (h : Json.parse text.toList = .ok (.list items)) : ofText source text = decodeItems items := by
  unfold ofText
  rw [h]
  rfl

theorem ofText_of_not_list [Depth] (source : String) {text : String}
    (h : ∀ items, Json.parse text.toList ≠ .ok (.list items))
    (hnesting : Json.nesting text.toList ≤ Depth.brackets) :
    ∃ reason, ofText source text = fault (.document source reason) := by
  unfold ofText
  rcases hparse : Json.parse text.toList with e | v
  · cases e with
    | nestedTooDeep container =>
        exact absurd hnesting (Nat.not_le.mpr (Json.brackets_lt_nesting hparse))
    | malformed problem position => exact ⟨_, rfl⟩
    | tooManyDigits count => exact ⟨_, rfl⟩
  · cases v with
    | list items => exact absurd hparse (h items)
    | _ => exact ⟨_, rfl⟩

/-- The items of a text that is an array are decoded to commands in their order, or the first one
that is refused is the fault, with its index and its reason. Any other text within the nesting that
is read is a fault of the document, whatever an item in it would have been. -/
theorem text_stops_at_first_refused [Depth] (source : String) {text : String}
    (hlength : text.length < 2 ^ 63) :
    (∀ items, Json.parse text.toList = .ok (.list items) →
        (∀ cs, ofText source text = .ok cs ↔
          List.Forall₂ (fun item c => Command.decode .null item = .ok c) items cs) ∧
        ∀ f, ofText source text = .error f ↔
          ∃ i reason, FirstRefused items i reason ∧
            f = .fault (.invalidCommand (.int i) reason)) ∧
      ((∀ items, Json.parse text.toList ≠ .ok (.list items)) →
        Json.nesting text.toList ≤ Depth.brackets →
          ∃ reason, ofText source text = fault (.document source reason)) := by
  refine ⟨fun items hparse => ?_, ofText_of_not_list source⟩
  rw [ofText_of_parse_list hparse]
  exact ⟨fun cs => decodeItems_eq_ok_iff_alone, fun f => decodeItems_eq_error_iff
    (length_items_le hlength hparse) (short_of_parse hparse)⟩

/-- A command, a record with an unknown letter, and an item that is no record. -/
def twiceRefused : List Value :=
  [.record [("command", .text "Z")], .record [("command", .text "X")], .int 7]

def twiceRefusedText : String :=
  "[\x7b\"command\":\"Z\"\x7d,\x7b\"command\":\"X\"\x7d,7]"

open Json in
theorem twiceRefused_parsed [Depth] :
    Json.parse twiceRefusedText.toList = .ok (.list twiceRefused) := by
  have hkey : QuotedText "command" _ :=
    (@charsText_self ['c', 'o', 'm', 'm', 'a', 'n', 'd'] (by decide)).quoted
  have hrecord {c : Char} (hc : isPlain c = true) : ContainerText (Spells 0)
      (.record [("command", .text (String.singleton c))]) _ :=
    .record (by simp) (.single (.mk [] [] (by decide) (by decide)
      (.mk [] [] (by decide) (by decide) hkey
        (.text (@charsText_self [c] (by simpa using hc)).quoted))))
  have hitems : ContainerText (Spells 1) (.list twiceRefused) _ :=
    .list (.cons (.mk [] [] (by decide) (by decide) (.inr (hrecord (c := 'Z') rfl)))
      (.cons (.mk [] [] (by decide) (by decide) (.inr (hrecord (c := 'X') rfl)))
        (.single (.mk [] [] (by decide) (by decide) (.inl (.number (.int 7)))))))
  have htext : Padded (Spells 2) (.list twiceRefused) _ :=
    .mk [] [] (by decide) (by decide) (.inr hitems)
  have hspelled : Padded (Spells 2) (.list twiceRefused) twiceRefusedText.toList := by
    convert htext using 1
    decide +kernel
  exact parse_spelled hspelled (Nat.le_trans (by decide) Depth.three_le_brackets)
    (by decide +kernel)

open scoped Depth in
theorem twiceRefused_stops :
    ofText "" twiceRefusedText = fault (.invalidCommand (.int 1) "unknown command 'X'") := by
  have hlength : twiceRefusedText.length < 2 ^ 63 := by decide +kernel
  have hfirst : FirstRefused twiceRefused 1 "unknown command 'X'" := by
    refine ⟨[.record [("command", .text "Z")]], .record [("command", .text "X")], [.int 7], rfl,
      rfl, ?_, rfl⟩
    intro earlier hearlier
    obtain rfl := List.mem_singleton.mp hearlier
    exact exists_ok_of_toBool (by decide +kernel)
  obtain ⟨-, hstops⟩ := (text_stops_at_first_refused "" hlength).1 _ twiceRefused_parsed
  exact (hstops _).mpr ⟨1, _, hfirst, rfl⟩

end Document

end VectorPath
