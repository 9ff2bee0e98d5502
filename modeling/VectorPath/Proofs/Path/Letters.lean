import VectorPath.Proofs.Path.Failure
import VectorPath.Proofs.Path.Grammar

/-!
# The commands of a path text

Between the spaces of a path text stand its tokens, and those that begin with the letter of a
command are its commands: no number and no flag begins with such a letter. So the commands of a path
can be counted in its text, whatever numbers it holds and under whatever settings it was written.
-/

namespace VectorPath

def isCommandLetter (c : Char) : Bool := (Form.all.map Form.letter).contains c

/-- The command letters with which the tokens of a text begin. -/
def commandLetters (text : List Char) : List Char :=
  (text.splitOn ' ').filterMap fun token => token.head?.filter isCommandLetter

section Tokens

variable {t u : List Char} {c : Char}

theorem commandLetters_append_space (t u : List Char) :
    commandLetters (t ++ ' ' :: u) = commandLetters t ++ commandLetters u := by
  unfold commandLetters
  rw [List.splitOn_append_cons_self, List.filterMap_append]

theorem isCommandLetter_letter (f : Form) : isCommandLetter f.letter = true := by
  obtain ⟨kind, relative⟩ := f
  cases kind <;> cases relative <;> rfl

theorem not_isCommandLetter_digit (h : isDecimalDigit c = true) : isCommandLetter c = false := by
  have hletters : (Form.all.map Form.letter).all (fun d => !isDecimalDigit d) = true := by decide
  by_contra hc
  have hmem : c ∈ Form.all.map Form.letter := by simpa [isCommandLetter] using hc
  simpa [h] using List.all_eq_true.mp hletters c hmem

/-- A command letter belongs to the first token of what follows, of which it is the head. -/
theorem commandLetters_cons (hc : isCommandLetter c = true) (ht : commandLetters t = []) :
    commandLetters (c :: t) = [c] := by
  have hspace : ¬ (c == ' ') = true := by
    intro h
    rw [eq_of_beq h] at hc
    exact absurd hc (by decide)
  unfold commandLetters at ht ⊢
  rw [List.splitOn_cons_eq_if_modifyHead, if_neg hspace]
  obtain ⟨token, tokens, htokens⟩ := List.exists_cons_of_ne_nil (List.splitOn_ne_nil ' ' t)
  rw [htokens, List.filterMap_eq_nil_iff] at ht
  have hrest := List.filterMap_eq_nil_iff.mpr fun u hu => ht u (List.mem_cons_of_mem token hu)
  rw [htokens, List.modifyHead_cons, List.filterMap_cons, List.head?_cons, Option.filter_some,
    if_pos hc, hrest]

/-- One token, which is no command. -/
structure Quiet (t : List Char) : Prop where
  one : ' ' ∉ t
  head : ∀ c, t.head? = some c → isCommandLetter c = false

theorem Quiet.letters (h : Quiet t) : commandLetters t = [] := by
  unfold commandLetters
  rw [List.splitOn_eq_singleton h.one, List.filterMap_eq_nil_iff]
  intro token htoken
  obtain rfl := List.mem_singleton.mp htoken
  rw [Option.filter_eq_none_iff]
  intro c hc
  simp [h.head c hc]

theorem Quiet.comma (h : Quiet t) : Quiet (t ++ [',']) := by
  refine ⟨by simpa using h.one, fun c hc => ?_⟩
  rcases t with _ | ⟨d, t⟩
  · obtain rfl := Option.some.inj hc
    decide
  · exact h.head c hc

end Tokens

section Numbers

theorem quiet_minus_append {t : List Char} (ht : Quiet t) (s : Bool) :
    Quiet (Layout.minus s ++ t) := by
  cases s with
  | false => exact ht
  | true =>
      refine ⟨?_, fun c hc => ?_⟩
      · simpa [Layout.minus] using ht.one
      · obtain rfl := Option.some.inj hc
        decide

theorem quiet_numeral {x : Numeral} (hx : x.IsPlain) : Quiet x.text := by
  refine ⟨fun hspace => ?_, fun c hc => ?_⟩
  · exact absurd (PathReader.goesOn_text hx ' ' hspace) (by decide)
  · obtain ⟨d, t, htext, hd⟩ := exists_digit_text hx
    rw [htext] at hc
    obtain rfl := Option.some.inj hc
    exact not_isCommandLetter_digit hd

theorem quiet_pathText (n : Number) : Quiet n.pathText.toList := by
  by_cases hn : n.isFinite = true
  · obtain ⟨negative, x, hwritten⟩ := exists_writtenAs hn
    rw [hwritten.text, String.toList_ofList]
    exact quiet_minus_append (quiet_numeral hwritten.plain) negative
  · rcases n with i | _ | s | _
    · exact absurd rfl hn
    · refine ⟨by decide, fun c hc => ?_⟩
      obtain rfl := Option.some.inj hc
      decide
    · refine ⟨by cases s <;> decide, fun c hc => ?_⟩
      cases s <;> obtain rfl := Option.some.inj hc <;> decide
    · exact absurd rfl hn

theorem quiet_numberText {v : Value} {text : String} (h : numberText v = .ok text) :
    Quiet text.toList := by
  unfold numberText at h
  split at h
  next i hi =>
    unfold integerText at h
    split_ifs at h
    · cases h
    · rw [← Except.ok.inj h]
      exact quiet_pathText (.int i)
  next x hx =>
    rw [← Except.ok.inj h]
    exact quiet_pathText (.float x)
  next => cases h

theorem WritingSettings.quiet_number {s : WritingSettings} {v : Value} {text : String}
    (h : s.number v = .ok text) : Quiet text.toList := by
  obtain ⟨_, -, h⟩ := bind_eq_ok.mp h
  obtain ⟨w, -, h⟩ := bind_eq_ok.mp h
  exact quiet_numberText h

end Numbers

section Layout

theorem point_quiet {p : Point} {t : List Char} (h : PointText (fun _ => Quiet) p t) :
    commandLetters t = [] ∧ commandLetters (t ++ [',']) = [] := by
  obtain ⟨hx, hy⟩ := h
  constructor
  · rw [commandLetters_append_space, hx.letters, hy.letters, List.append_nil]
  · rw [List.append_assoc, List.cons_append, commandLetters_append_space, hx.letters,
      hy.comma.letters, List.append_nil]

theorem quiet_flagDigit (v : Value) : Quiet [flagDigit v] := by
  unfold flagDigit
  split
  all_goals
    refine ⟨by decide, fun c hc => ?_⟩
    obtain rfl := Option.some.inj hc
    decide

theorem comma_space (t u : List Char) : t ++ ',' :: ' ' :: u = (t ++ [',']) ++ ' ' :: u := by simp

theorem shape_quiet {shape : Shape} {t : List Char} (h : ShapeText (fun _ => Quiet) shape t) :
    commandLetters t = [] := by
  -- The comma between two points belongs to the last token of the first one.
  cases h with
  | moveTo h => exact (point_quiet h).1
  | lineTo h => exact (point_quiet h).1
  | horizontalLineTo h => exact h.letters
  | verticalLineTo h => exact h.letters
  | closePath => rfl
  | curveTo h h' h'' =>
      simp only [comma_space, commandLetters_append_space, (point_quiet h).2, (point_quiet h').2,
        (point_quiet h'').1, List.append_nil]
  | smoothCurveTo h h' =>
      simp only [comma_space, commandLetters_append_space, (point_quiet h).2, (point_quiet h').1,
        List.append_nil]
  | quadraticCurveTo h h' =>
      simp only [comma_space, commandLetters_append_space, (point_quiet h).2, (point_quiet h').1,
        List.append_nil]
  | smoothQuadraticCurveTo h => exact (point_quiet h).1
  | @arcTo r p a l s t u v h h' h'' =>
      have hflags : u ++ ' ' :: flagDigit l :: ' ' :: flagDigit s :: ' ' :: v =
          u ++ ' ' :: ([flagDigit l] ++ ' ' :: ([flagDigit s] ++ ' ' :: v)) := rfl
      simp only [hflags, commandLetters_append_space, (point_quiet h).1, h'.letters,
        (quiet_flagDigit l).letters, (quiet_flagDigit s).letters, (point_quiet h'').1,
        List.append_nil]

theorem command_letters {c : Command} {t : List Char} (h : CommandText (fun _ => Quiet) c t) :
    commandLetters t = [c.letter] := by
  obtain ⟨hshape⟩ := h
  exact commandLetters_cons (isCommandLetter_letter c.form) (shape_quiet hshape)

theorem path_letters {cs : List Command} {t : List Char} (h : PathText (fun _ => Quiet) cs t) :
    commandLetters t = cs.map Command.letter := by
  induction h with
  | empty => rfl
  | single hc => exact command_letters hc
  | cons hc _ ih =>
      rw [commandLetters_append_space, command_letters hc, ih]
      rfl

end Layout

/-- The commands of a path can be told from its text. -/
theorem letters_of_commands {s : WritingSettings} {cs : List Command} {text : String}
    (h : s.commands cs = .ok text) : commandLetters text.toList = cs.map Command.letter := by
  obtain ⟨t, ht, hlayout⟩ : ∃ t, s.commands cs = .ok t ∧
      PathText (fun _ => Quiet) cs t.toList := by
    refine WritingSettings.commands_written fun c hc v hv => ?_
    obtain ⟨t, ht⟩ := WritingSettings.number_of_commands h v (List.mem_flatMap_of_mem hc hv)
    exact ⟨t, ht, WritingSettings.quiet_number ht⟩
  obtain rfl : t = text := Except.ok.inj (ht.symm.trans h)
  exact path_letters hlayout

end VectorPath
