import VectorPath.Proofs.Outcome
import VectorPath.Proofs.Path.Reading

/-!
# What stops a path

A path of commands fails exactly with the failure of its first number that cannot be written, in
drawing order. Which numbers these are is a matter of the policy: an integer too long for a text
cannot be written under any, and what is not finite is refused where it is rejected. Rounding makes
no number unwritable.
-/

namespace VectorPath

namespace WritingSettings

section Stops

variable {s t : WritingSettings}

theorem parameter_eq_error {p : Parameter} {f : Failure} :
    s.parameter p = .error f ↔ StopsAt s.number f p.numbers := by
  cases p with
  | point p =>
      change s.point p = _ ↔ StopsAt s.number f [p.x, p.y]
      unfold point
      rw [bind_eq_error, stopsAt_cons, stopsAt_cons]
      simp only [bind_pure_eq_error, exists_and_right, not_stopsAt_nil, and_false, or_false]
  | number v =>
      change s.number v = _ ↔ StopsAt s.number f [v]
      simp only [stopsAt_cons, not_stopsAt_nil, and_false, or_false]
  | flag v => exact ⟨nofun, nofun⟩

theorem command_eq_error {c : Command} {f : Failure} :
    s.command c = .error f ↔ StopsAt s.number f c.numbers := by
  unfold command Command.numbers
  rw [bind_pure_eq_error, mapM_eq_error]
  exact stopsAt_flatMap fun p e => parameter_eq_error

theorem commands_eq_error {cs : List Command} {f : Failure} :
    s.commands cs = .error f ↔ StopsAt s.number f (cs.flatMap Command.numbers) := by
  unfold commands
  rw [bind_pure_eq_error, mapM_eq_error]
  exact stopsAt_flatMap fun c e => command_eq_error

theorem number_of_commands {cs : List Command} {text : String} (h : s.commands cs = .ok text) :
    ∀ v ∈ cs.flatMap Command.numbers, ∃ t, s.number v = .ok t := by
  refine exists_ok_of_mem fun f hf => ?_
  rw [← commands_eq_error, h] at hf
  cases hf

/-- Settings write a field as others write it with its numbers replaced, if they do so for every
number. -/
theorem parameter_mapNumbers {f : Value → Value} {p : Parameter}
    (h : ∀ v ∈ p.numbers, s.number v = t.number (f v)) :
    s.parameter p = t.parameter (p.mapNumbers f) := by
  cases p with
  | point p =>
      change s.point p = t.point (p.mapNumbers f)
      unfold point
      rw [h p.x (by simp [Parameter.numbers]), h p.y (by simp [Parameter.numbers])]
      rfl
  | number v => exact h v (List.mem_singleton_self v)
  | flag v => rfl

theorem command_mapNumbers {f : Value → Value} {c : Command}
    (h : ∀ v ∈ c.numbers, s.number v = t.number (f v)) :
    s.command c = t.command (c.mapNumbers f) := by
  have hletter : (c.mapNumbers f).letter = c.letter :=
    congrArg Form.letter (Command.form_mapNumbers f c)
  unfold command
  rw [Command.parameters_mapNumbers, Command.form_mapNumbers, hletter, List.mapM_map,
    mapM_congr fun p hp => parameter_mapNumbers fun v hv => h v (List.mem_flatMap_of_mem hp hv)]
  rfl

theorem commands_mapNumbers {f : Value → Value} {cs : List Command}
    (h : ∀ c ∈ cs, ∀ v ∈ c.numbers, s.number v = t.number (f v)) :
    s.commands cs = t.commands (cs.map (Command.mapNumbers f)) := by
  unfold commands
  rw [List.mapM_map, mapM_congr fun c hc => command_mapNumbers (h c hc)]
  rfl

theorem commands_congr {cs : List Command}
    (h : ∀ c ∈ cs, ∀ v ∈ c.numbers, s.number v = t.number v) : s.commands cs = t.commands cs := by
  rw [commands_mapNumbers (f := id) h, Command.mapNumbers_id, List.map_id]

end Stops

section Numbers

/-- The number whose shortest text is written. -/
def rounded (s : WritingSettings) : Number → Number
  | .int i => .int i
  | .float x => .float (s.precision.elim x fun places => x.toPlaces places.val)

variable {s : WritingSettings} {v : Value} {n : Number}

theorem round_of_number (s : WritingSettings) (hv : v.number? = some n) :
    ∃ w, s.round v = .ok w ∧ w.number? = some (s.rounded n) := by
  obtain ⟨precision, policy⟩ := s
  cases v with
  | bool b =>
      obtain rfl := Option.some.inj hv
      cases precision <;> exact ⟨_, rfl, rfl⟩
  | number m =>
      obtain rfl := Option.some.inj hv
      cases m <;> cases precision <;> exact ⟨_, rfl, rfl⟩
  | _ => simp [Value.number?] at hv

theorem hasText_rounded : (s.rounded n).HasText ↔ n.HasText := by
  cases n <;> rfl

/-- Rounding is all that happens to a number that is let pass. -/
theorem number_of_allow (hallow : s.allow v = .ok ()) (hv : v.number? = some n) :
    ∃ w, w.number? = some (s.rounded n) ∧ s.number v = numberText w := by
  obtain ⟨w, hround, hw⟩ := s.round_of_number hv
  refine ⟨w, hw, ?_⟩
  unfold number
  rw [hallow, hround]
  rfl

theorem number_of_hasText (hallow : s.allow v = .ok ()) (hv : v.number? = some n)
    (hn : n.HasText) : s.number v = .ok (s.rounded n).pathText := by
  obtain ⟨w, hw, hnumber⟩ := number_of_allow hallow hv
  rw [hnumber, numberText_eq hw (hasText_rounded.mpr hn)]

theorem number_of_long (hallow : s.allow v = .ok ()) (hv : v.number? = some n)
    (hn : ¬ n.HasText) : s.number v = mishap .integerTextTooLong := by
  obtain ⟨w, hw, hnumber⟩ := number_of_allow hallow hv
  cases n with
  | int i =>
      have hlong : Layout.isTooLong i = true := Bool.eq_true_of_not_eq_false hn
      rw [hnumber]
      unfold numberText
      rw [hw]
      exact if_pos hlong
  | float x => exact absurd trivial hn

theorem allow_passThrough (hs : s.policy = .passThrough) (v : Value) : s.allow v = .ok () := by
  unfold allow
  rw [hs]

end Numbers

end WritingSettings

def Value.isNonFinite : Value → Bool
  | .number n => !n.isFinite
  | _ => false

namespace WritingSettings

theorem number_reject (precision : Option (Fin 16)) (v : Value) :
    number ⟨precision, .reject⟩ v =
      if v.isNonFinite then fault (.nonFinite v) else number ⟨precision, .passThrough⟩ v := by
  cases v with
  | number n =>
    cases n with
    | float x =>
        cases x <;> rfl
    | int i => rfl
  | _ => rfl

end WritingSettings

/-- What rejecting makes of a path with some numbers and a text where nothing is refused. -/
inductive Rejection (numbers : List Value) (text : String) : Outcome String → Prop
  | finite : (∀ v ∈ numbers, v.isNonFinite = false) → Rejection numbers text (.ok text)
  | first {done rest : List Value} {v : Value} :
      numbers = done ++ v :: rest → (∀ w ∈ done, w.isNonFinite = false) → v.isNonFinite = true →
        Rejection numbers text (fault (.nonFinite v))

section Reject

variable {precision : Option (Fin 16)}

theorem exists_first_nonFinite (vs : List Value) :
    (∀ v ∈ vs, v.isNonFinite = false) ∨ ∃ done v rest, vs = done ++ v :: rest ∧
      (∀ w ∈ done, w.isNonFinite = false) ∧ v.isNonFinite = true := by
  induction vs with
  | nil => exact .inl (by simp)
  | cons v vs ih =>
      rcases hv : v.isNonFinite with _ | _
      · rcases ih with hfinite | ⟨done, w, rest, rfl, hdone, hw⟩
        · exact .inl (List.forall_mem_cons.mpr ⟨hv, hfinite⟩)
        · exact .inr ⟨v :: done, w, rest, rfl, List.forall_mem_cons.mpr ⟨hv, hdone⟩, hw⟩
      · exact .inr ⟨[], v, vs, rfl, by simp, hv⟩

theorem number_reject_of_finite {v : Value} (hv : v.isNonFinite = false) :
    WritingSettings.number ⟨precision, .reject⟩ v =
      WritingSettings.number ⟨precision, .passThrough⟩ v := by
  rw [WritingSettings.number_reject, hv]
  rfl

theorem rejection_of_passThrough {cs : List Command} {text : String}
    (h : WritingSettings.commands ⟨precision, .passThrough⟩ cs = .ok text) :
    Rejection (cs.flatMap Command.numbers) text
      (WritingSettings.commands ⟨precision, .reject⟩ cs) := by
  rcases exists_first_nonFinite (cs.flatMap Command.numbers) with
    hfinite | ⟨done, v, rest, hnumbers, hdone, hv⟩
  · have hsame : WritingSettings.commands ⟨precision, .reject⟩ cs = .ok text := by
      rw [← h]
      exact WritingSettings.commands_congr fun c hc v hv =>
        number_reject_of_finite (hfinite v (List.mem_flatMap_of_mem hc hv))
    rw [hsame]
    exact .finite hfinite
  · have hstops : WritingSettings.commands ⟨precision, .reject⟩ cs = fault (.nonFinite v) := by
      have hwritten := WritingSettings.number_of_commands h
      rw [hnumbers] at hwritten
      -- Both policies write the numbers before the first one that is not finite.
      obtain ⟨ts, hts⟩ : ∃ ts,
          done.mapM (WritingSettings.number ⟨precision, .reject⟩) = .ok ts := by
        rw [mapM_congr fun w hw => number_reject_of_finite (hdone w hw), exists_ok_iff]
        intro f hf
        obtain ⟨w, hw, hfail⟩ := exists_mem_of_stopsAt (mapM_eq_error.mp hf)
        obtain ⟨t, ht⟩ := hwritten w (List.mem_append_left _ hw)
        rw [ht] at hfail
        cases hfail
      refine WritingSettings.commands_eq_error.mpr ?_
      rw [hnumbers]
      refine stopsAt_append.mpr (.inr ⟨⟨ts, hts⟩, .here ?_⟩)
      rw [WritingSettings.number_reject, hv]
      rfl
    rw [hstops]
    exact .first hnumbers hdone hv

variable {numbers : List Value} {text : String} {o : Outcome String}

theorem find?_first {done rest : List Value} {v : Value}
    (hdone : ∀ w ∈ done, w.isNonFinite = false) (hv : v.isNonFinite = true) :
    (done ++ v :: rest).find? Value.isNonFinite = some v := by
  have hnone : done.find? Value.isNonFinite = none := by simpa using hdone
  simp [List.find?_append, hnone, hv]

theorem Rejection.eq_ok_iff (h : Rejection numbers text o) {t : String} :
    o = .ok t ↔ t = text ∧ ∀ v ∈ numbers, v.isNonFinite = false := by
  cases h with
  | finite hfinite =>
      rw [Except.ok.injEq]
      exact ⟨fun h => ⟨h.symm, hfinite⟩, fun h => h.1.symm⟩
  | first hnumbers hdone hv =>
      constructor
      · intro h
        cases h
      · rintro ⟨-, hfinite⟩
        have hfalse := hfinite _ (hnumbers ▸ List.mem_append_right _ (List.mem_cons_self ..))
        rw [hv] at hfalse
        cases hfalse

theorem Rejection.eq_error_iff (h : Rejection numbers text o) {f : Failure} :
    o = .error f ↔
      ∃ v, numbers.find? Value.isNonFinite = some v ∧ f = .fault (.nonFinite v) := by
  cases h with
  | finite hfinite =>
      have hnone : numbers.find? Value.isNonFinite = none := by simpa using hfinite
      simp [hnone]
  | first hnumbers hdone hv =>
      subst hnumbers
      simp [find?_first hdone hv, fault, eq_comm]

end Reject

/-- Every number field and coordinate counts as a number. -/
def Command.HasNumbers (c : Command) : Prop := ∀ v ∈ c.numbers, ∃ n, v.number? = some n

theorem Command.hasNumbers {c : Command} (h : c.HasNumberTexts) : c.HasNumbers := by
  intro v hv
  obtain ⟨n, hn, -⟩ := h v hv
  exact ⟨n, hn⟩

/-- A text if the condition holds, and the mishap of an integer too long for a text if not. -/
structure WrittenExactlyIf (condition : Prop) (o : Outcome String) : Prop where
  written : condition → ∃ text, o = .ok text
  tooLong : ¬ condition → o = mishap .integerTextTooLong

section PassThrough

variable {s : WritingSettings} {vs : List Value} {o : Outcome String} {f : Failure}

theorem Value.hasText_iff {v : Value} {n : Number} (hv : v.number? = some n) :
    v.HasText ↔ n.HasText := by
  unfold Value.HasText
  rw [hv]
  simp

theorem WritingSettings.stopsAt_passThrough (hs : s.policy = .passThrough)
    (h : ∀ v ∈ vs, ∃ n, v.number? = some n) :
    StopsAt s.number f vs ↔ f = .mishap .integerTextTooLong ∧ ∃ v ∈ vs, ¬ v.HasText := by
  induction vs with
  | nil => simp [not_stopsAt_nil]
  | cons v vs ih =>
      obtain ⟨n, hv⟩ := h v (List.mem_cons_self ..)
      have hallow := s.allow_passThrough hs v
      rw [stopsAt_cons, ih fun w hw => h w (List.mem_cons_of_mem v hw)]
      simp only [List.mem_cons, exists_eq_or_imp, Value.hasText_iff hv]
      by_cases hn : n.HasText
      · simp [number_of_hasText hallow hv hn, hn]
      · simp [number_of_long hallow hv hn, hn, mishap, eq_comm]

theorem WrittenExactlyIf.of_stopsAt (hs : s.policy = .passThrough)
    (h : ∀ v ∈ vs, ∃ n, v.number? = some n) (ho : ∀ f, o = .error f ↔ StopsAt s.number f vs) :
    WrittenExactlyIf (∀ v ∈ vs, v.HasText) o where
  written htext := by
    refine exists_ok_iff.mpr fun f hf => ?_
    obtain ⟨-, v, hv, hlong⟩ := (WritingSettings.stopsAt_passThrough hs h).mp ((ho f).mp hf)
    exact hlong (htext v hv)
  tooLong hlong := by
    refine (ho _).mpr ((WritingSettings.stopsAt_passThrough hs h).mpr ⟨rfl, ?_⟩)
    simpa using hlong

end PassThrough

theorem WritingSettings.item_toValue (s : WritingSettings) (c : Command) :
    s.item c.toValue = s.command c := by
  unfold item
  rw [Command.ofValue?_toValue]

theorem commands_writtenExactlyIf {s : WritingSettings} (hs : s.policy = .passThrough)
    {cs : List Command} (h : ∀ c ∈ cs, c.HasNumbers) :
    WrittenExactlyIf (∀ c ∈ cs, c.HasNumberTexts) (s.commands cs) := by
  have hnumbers : ∀ v ∈ cs.flatMap Command.numbers, ∃ n, v.number? = some n :=
    List.forall_mem_flatMap.mpr h
  have hpath := WrittenExactlyIf.of_stopsAt hs hnumbers fun f => s.commands_eq_error
  rw [List.forall_mem_flatMap] at hpath
  exact hpath

/-- Where nothing is refused, a path of numbers is written, and so is every command of it by
itself, unless an integer of it is too long for a text. -/
theorem pass_through_writes_numbers (s : WritingSettings) (hs : s.policy = .passThrough)
    {cs : List Command} (h : ∀ c ∈ cs, c.HasNumbers) :
    WrittenExactlyIf (∀ c ∈ cs, c.HasNumberTexts) (s.pathOf (.list (cs.map Command.toValue))) ∧
      ∀ c ∈ cs, WrittenExactlyIf c.HasNumberTexts (s.item c.toValue) := by
  constructor
  · rw [WritingSettings.pathOf_toValue]
    exact commands_writtenExactlyIf hs h
  · intro c hc
    rw [WritingSettings.item_toValue]
    exact .of_stopsAt hs (h c hc) fun f => s.command_eq_error

/-- At every precision, a path whose numbers have texts is written alike under both policies if all
of them are finite. Otherwise rejecting stops at the first one in drawing order that is not, and at
nothing else. -/
theorem rejection_agrees_with_pass_through (precision : Option (Fin 16)) {cs : List Command}
    (h : ∀ c ∈ cs, c.HasNumberTexts) :
    ∃ text,
      WritingSettings.pathOf ⟨precision, .passThrough⟩ (.list (cs.map Command.toValue)) =
          .ok text ∧
        (∀ t, WritingSettings.pathOf ⟨precision, .reject⟩ (.list (cs.map Command.toValue)) =
            .ok t ↔ t = text ∧ ∀ v ∈ cs.flatMap Command.numbers, v.isNonFinite = false) ∧
        ∀ f, WritingSettings.pathOf ⟨precision, .reject⟩ (.list (cs.map Command.toValue)) =
            .error f ↔
          ∃ v, (cs.flatMap Command.numbers).find? Value.isNonFinite = some v ∧
            f = .fault (.nonFinite v) := by
  have hnumbers : ∀ c ∈ cs, c.HasNumbers := fun c hc => Command.hasNumbers (h c hc)
  obtain ⟨text, htext⟩ :=
    (commands_writtenExactlyIf (s := ⟨precision, .passThrough⟩) rfl hnumbers).written h
  have hreject := rejection_of_passThrough htext
  simp only [WritingSettings.pathOf_toValue]
  exact ⟨text, htext, fun t => hreject.eq_ok_iff, fun f => hreject.eq_error_iff⟩

/-- A move, and an arc of which a radius, the angle and a flag are not finite. -/
def boundlessArc : List Command :=
  [⟨false, .moveTo ⟨.int 0, .float (.zero true)⟩⟩,
    ⟨true, .arcTo ⟨.int 0, .float (.infinity true)⟩ (.float .nan) (.float .nan) (.text "")
      ⟨.int 0, .float .nan⟩⟩]

/-- The radius comes before the angle, and the flags are not looked at. -/
theorem boundlessArc_rejection_agrees :
    (∃ text, WritingSettings.pathOf ⟨some 2, .passThrough⟩
        (.list (boundlessArc.map Command.toValue)) = .ok text) ∧
      WritingSettings.pathOf ⟨some 2, .reject⟩ (.list (boundlessArc.map Command.toValue)) =
        fault (.nonFinite (.float (.infinity true))) := by
  have htexts : ∀ c ∈ boundlessArc, c.HasNumberTexts := by
    intro c hc v hv
    rcases List.mem_pair.mp hc with rfl | rfl
    all_goals
      simp only [Command.numbers, Command.parameters, Shape.parameters, Parameter.numbers,
        List.flatMap_cons, List.flatMap_nil, List.append_nil, List.cons_append, List.nil_append,
        List.mem_cons, List.not_mem_nil, or_false] at hv
      grind [Value.hasText_zero, Value.hasText_float]
  obtain ⟨text, htext, -, hreject⟩ := rejection_agrees_with_pass_through (some 2) htexts
  exact ⟨⟨text, htext⟩, (hreject _).mpr ⟨_, rfl, rfl⟩⟩

/-- A horizontal line to the least integer that is too long for a text. -/
def endlessLine : Command := ⟨false, .horizontalLineTo (.int (10 ^ 4300))⟩

theorem endlessLine_hasNumbers : endlessLine.HasNumbers := by
  intro v hv
  obtain rfl := List.mem_singleton.mp hv
  exact ⟨_, rfl⟩

theorem endlessLine_not_hasNumberTexts : ¬ endlessLine.HasNumberTexts := by
  intro h
  have htext := (Value.hasText_iff rfl).mp (h _ (List.mem_singleton_self _))
  have hlong : Layout.isTooLong (10 ^ 4300) = true := by decide +kernel
  exact absurd (htext.symm.trans hlong) (by decide)

/-- A point that is not finite is written, and the line behind it stops the path. -/
theorem pass_through_stops_at_endlessLine :
    let start := Command.absolute (.moveTo ⟨.float .nan, .float (.infinity true)⟩)
    (∃ text, WritingSettings.item ⟨some 3, .passThrough⟩ start.toValue = .ok text) ∧
      WritingSettings.pathOf ⟨some 3, .passThrough⟩
        (.list ([start, endlessLine].map Command.toValue)) = mishap .integerTextTooLong := by
  intro start
  have hpoint : start.HasNumberTexts := by
    intro v hv
    rcases List.mem_pair.mp hv with rfl | rfl <;> exact Value.hasText_float _
  have hnumbers : ∀ c ∈ [start, endlessLine], c.HasNumbers := by
    intro c hc
    rcases List.mem_pair.mp hc with rfl | rfl
    · intro v hv
      obtain ⟨n, hn, -⟩ := hpoint v hv
      exact ⟨n, hn⟩
    · exact endlessLine_hasNumbers
  obtain ⟨hpath, hitems⟩ := pass_through_writes_numbers ⟨some 3, .passThrough⟩ rfl hnumbers
  refine ⟨(hitems start (by simp)).written hpoint, hpath.tooLong fun h => ?_⟩
  exact endlessLine_not_hasNumberTexts (h endlessLine (by simp))

/-- Not every path of numbers is written. -/
theorem not_every_path_of_numbers_written :
    ¬ ∀ cs : List Command, (∀ c ∈ cs, c.HasNumbers) →
      ∃ text, ({} : WritingSettings).pathOf (.list (cs.map Command.toValue)) = .ok text := by
  intro h
  have hnumbers : ∀ c ∈ [endlessLine], c.HasNumbers := by
    intro c hc
    obtain rfl := List.mem_singleton.mp hc
    exact endlessLine_hasNumbers
  have hlong : ¬ ∀ c ∈ [endlessLine], c.HasNumberTexts :=
    fun h => endlessLine_not_hasNumberTexts (h endlessLine (List.mem_singleton_self _))
  obtain ⟨text, htext⟩ := h [endlessLine] hnumbers
  rw [WritingSettings.pathOf_toValue, (commands_writtenExactlyIf rfl hnumbers).tooLong hlong]
    at htext
  cases htext

end VectorPath
