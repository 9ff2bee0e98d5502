import VectorPath.Proofs.Path.Composition

/-!
# Absolute and relative forms

Whether a command is absolute or relative shows in the case of its letter and nowhere else. Commands
of a path that change their form change one character of its text each, the first one of the text of
the command. What stops a path stops it in every form.
-/

namespace VectorPath

/-- The small letter of a capital and the capital of a small letter. -/
def switchedCase (c : Char) : Char := if c.isUpper then c.toLower else c.toUpper

theorem Form.letter_counterpart (f : Form) : f.counterpart.letter = switchedCase f.letter := by
  obtain ⟨kind, relative⟩ := f
  cases kind <;> cases relative <;> rfl

namespace Command

/-- The chosen commands in their other form. -/
def switchAt (chosen : ℕ → Bool) (cs : List Command) : List Command :=
  cs.mapIdx fun i c => if chosen i then c.counterpart else c

/-- The letter of a command in the form that is chosen. -/
def switchedLetter (switched : Bool) (c : Command) : Char :=
  if switched then switchedCase c.letter else c.letter

theorem switchAt_cons (chosen : ℕ → Bool) (c : Command) (cs : List Command) :
    switchAt chosen (c :: cs) =
      (if chosen 0 then c.counterpart else c) :: switchAt (fun i => chosen (i + 1)) cs :=
  List.mapIdx_cons

theorem numbers_switchAt (chosen : ℕ → Bool) (cs : List Command) :
    (switchAt chosen cs).flatMap numbers = cs.flatMap numbers := by
  induction cs generalizing chosen with
  | nil => rfl
  | cons c cs ih =>
      have hnumbers : (if chosen 0 then c.counterpart else c).numbers = c.numbers := by
        split <;> rfl
      rw [switchAt_cons, List.flatMap_cons, List.flatMap_cons, hnumbers, ih]

end Command

/-- Texts of commands, and what becomes of them when the chosen commands change their form. -/
inductive Recased : (ℕ → Bool) → List Command → List String → List String → Prop
  | nil {chosen : ℕ → Bool} : Recased chosen [] [] []
  | cons {chosen : ℕ → Bool} {c : Command} {cs : List Command} {ts us : List String}
      (body : String) : Recased (fun i => chosen (i + 1)) cs ts us →
        Recased chosen (c :: cs) ((String.singleton c.letter ++ body) :: ts)
          ((String.singleton (c.switchedLetter (chosen 0)) ++ body) :: us)

namespace WritingSettings

variable {s : WritingSettings} {chosen : ℕ → Bool} {cs : List Command} {ts : List String}

theorem command_switched {c : Command} {t : String} (h : s.command c = .ok t) (switched : Bool) :
    ∃ body, t = String.singleton c.letter ++ body ∧
      s.command (if switched then c.counterpart else c) =
        .ok (String.singleton (c.switchedLetter switched) ++ body) := by
  obtain ⟨parameters, hparameters, ht⟩ := bind_eq_ok.mp h
  obtain rfl := Except.ok.inj ht
  refine ⟨_, rfl, ?_⟩
  cases switched with
  | false => exact h
  | true =>
      have hletter : c.counterpart.letter = switchedCase c.letter := c.form.letter_counterpart
      change s.command c.counterpart = _
      unfold command
      rw [hletter]
      exact bind_eq_ok.mpr ⟨parameters, hparameters, rfl⟩

theorem mapM_command_switchAt (h : cs.mapM s.command = .ok ts) (chosen : ℕ → Bool) :
    ∃ us, (Command.switchAt chosen cs).mapM s.command = .ok us ∧ Recased chosen cs ts us := by
  induction cs generalizing chosen ts with
  | nil =>
      obtain rfl := Except.ok.inj h
      exact ⟨[], rfl, .nil⟩
  | cons c cs ih =>
      rw [List.mapM_cons] at h
      obtain ⟨t, ht, h⟩ := bind_eq_ok.mp h
      obtain ⟨ts, hts, h⟩ := bind_eq_ok.mp h
      obtain rfl := Except.ok.inj h
      obtain ⟨body, rfl, hswitched⟩ := command_switched ht (chosen 0)
      obtain ⟨us, hus, hrecased⟩ := ih hts fun i => chosen (i + 1)
      refine ⟨_, ?_, .cons body hrecased⟩
      rw [Command.switchAt_cons, List.mapM_cons, hswitched, hus]
      rfl

theorem commands_switchAt_eq_error {f : Failure} :
    s.commands (Command.switchAt chosen cs) = .error f ↔ s.commands cs = .error f := by
  rw [commands_eq_error, commands_eq_error, Command.numbers_switchAt]

end WritingSettings

/-- Where a text begins if the texts are written with one character between them. -/
def tokenStart (tokens : List String) (i : ℕ) : ℕ :=
  ((tokens.take i).map fun t => t.length + 1).sum

theorem tokenStart_succ (t : String) (ts : List String) (i : ℕ) :
    tokenStart (t :: ts) (i + 1) = t.length + 1 + tokenStart ts i := by
  simp [tokenStart]

/-- Two texts of one length whose characters differ only where the text of a chosen command begins:
there the letter of the command stands in one case in the one and in the other case in the other. -/
structure SameButCase (chosen : ℕ → Bool) (cs : List Command) (tokens : List String)
    (text other : String) : Prop where
  length : other.length = text.length
  switched : ∀ i c, cs[i]? = some c → chosen i = true →
    text.toList[tokenStart tokens i]? = some c.letter ∧
      other.toList[tokenStart tokens i]? = some (switchedCase c.letter)
  kept : ∀ k, (∀ i < cs.length, chosen i = true → k ≠ tokenStart tokens i) →
    other.toList[k]? = text.toList[k]?

/-- The characters of texts with a space before each of them. -/
def spaced (ts : List String) : List Char := ts.flatMap fun t => ' ' :: t.toList

theorem toList_joinWith (ts : List String) : (joinWith " " ts).toList = (spaced ts).tail := by
  induction ts with
  | nil => rfl
  | cons t ts ih =>
      rcases ts with _ | ⟨u, us⟩
      · simp [joinWith, spaced]
      · rw [joinWith_eq_intercalate] at ih ⊢
        rw [String.intercalate_cons_cons, String.toList_append, String.toList_append, ih]
        simp [spaced]

theorem spaced_token (letter : Char) (body : String) (ts : List String) :
    spaced ((String.singleton letter ++ body) :: ts) =
      ' ' :: letter :: (body.toList ++ spaced ts) := by
  simp [spaced]

namespace Recased

variable {chosen : ℕ → Bool} {cs : List Command} {ts us : List String}

theorem length_spaced (h : Recased chosen cs ts us) :
    (spaced us).length = (spaced ts).length := by
  induction h with
  | nil => rfl
  | cons body _ ih => simp only [spaced_token, List.length_cons, List.length_append, ih]

theorem letters (h : Recased chosen cs ts us) {i : ℕ} {c : Command} (hc : cs[i]? = some c) :
    (spaced ts)[tokenStart ts i + 1]? = some c.letter ∧
      (spaced us)[tokenStart ts i + 1]? = some (c.switchedLetter (chosen i)) := by
  induction h generalizing i with
  | nil => simp at hc
  | @cons chosen d cs ts us body _ ih =>
      rw [spaced_token, spaced_token]
      cases i with
      | zero =>
          obtain rfl := Option.some.inj hc
          exact ⟨rfl, rfl⟩
      | succ i =>
          -- A space, the letter and the body come before what the next text begins with.
          have hstart : tokenStart ((String.singleton d.letter ++ body) :: ts) (i + 1) + 1 =
              body.toList.length + (tokenStart ts i + 1) + 1 + 1 := by
            rw [tokenStart_succ, String.length_append, String.length_singleton,
              String.length_toList]
            omega
          simp only [hstart, List.getElem?_cons_succ]
          rw [List.getElem?_append_right (by omega), List.getElem?_append_right (by omega),
            Nat.add_sub_cancel_left]
          exact ih hc

theorem others (h : Recased chosen cs ts us) {k : ℕ}
    (hk : ∀ i < cs.length, chosen i = true → k ≠ tokenStart ts i + 1) :
    (spaced us)[k]? = (spaced ts)[k]? := by
  induction h generalizing k with
  | nil => rfl
  | @cons chosen c cs ts us body _ ih =>
      rw [spaced_token, spaced_token]
      rcases k with _ | _ | k
      · rfl
      · have hsame : chosen 0 = false :=
          Bool.eq_false_of_not_eq_true fun hchosen => hk 0 (Nat.zero_lt_succ _) hchosen rfl
        rw [hsame]
        rfl
      · simp only [List.getElem?_cons_succ, List.getElem?_append]
        split
        next => rfl
        next hbody =>
          refine ih fun i hi hchosen hstart => ?_
          refine hk (i + 1) (Nat.succ_lt_succ hi) hchosen ?_
          rw [tokenStart_succ, String.length_append, String.length_singleton]
          rw [String.length_toList] at hstart hbody
          omega

theorem sameButCase (h : Recased chosen cs ts us) :
    SameButCase chosen cs ts (joinWith " " ts) (joinWith " " us) where
  length := by
    rw [← String.length_toList, ← String.length_toList, toList_joinWith, toList_joinWith,
      List.length_tail, List.length_tail, h.length_spaced]
  switched i c hc hchosen := by
    have hletters := h.letters hc
    rw [hchosen] at hletters
    simp only [toList_joinWith, List.getElem?_tail]
    exact hletters
  kept k hk := by
    simp only [toList_joinWith, List.getElem?_tail]
    exact h.others fun i hi hchosen hstart => hk i hi hchosen (Nat.succ.inj hstart)

end Recased

/-- Commands that change between their absolute and relative forms leave the failure of a path as it
is, and the text of the path up to the case of their letters. -/
theorem form_is_letter_case (s : WritingSettings) (chosen : ℕ → Bool) (cs : List Command) :
    (∀ f, s.pathOf (.list ((Command.switchAt chosen cs).map Command.toValue)) = .error f ↔
        s.pathOf (.list (cs.map Command.toValue)) = .error f) ∧
      ∀ text, s.pathOf (.list (cs.map Command.toValue)) = .ok text →
        ∃ tokens other, List.Forall₂ (fun c t => s.item c.toValue = .ok t) cs tokens ∧
          text = joinWith " " tokens ∧
          s.pathOf (.list ((Command.switchAt chosen cs).map Command.toValue)) = .ok other ∧
          SameButCase chosen cs tokens text other := by
  simp only [WritingSettings.pathOf_toValue]
  refine ⟨fun f => WritingSettings.commands_switchAt_eq_error, fun text h => ?_⟩
  obtain ⟨ts, hts, htext⟩ := bind_eq_ok.mp h
  obtain rfl := Except.ok.inj htext
  obtain ⟨us, hus, hrecased⟩ := WritingSettings.mapM_command_switchAt hts chosen
  refine ⟨ts, joinWith " " us, ?_, rfl, ?_, hrecased.sameButCase⟩
  · simp only [WritingSettings.item_toValue]
    exact mapM_eq_ok.mp hts
  · exact bind_eq_ok.mpr ⟨us, hus, rfl⟩

/-- The second of two closings becomes relative. -/
example :
    ({} : WritingSettings).pathOf (.list ((Command.switchAt (· == 1)
      [.absolute .closePath, .absolute .closePath]).map Command.toValue)) = .ok "Z z" :=
  rfl

end VectorPath
