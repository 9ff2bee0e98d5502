import VectorPath.Proofs.Document.Writing
import VectorPath.Proofs.Processor.Ledger

/-!
# The statistics and the texts

What a processor counts can be counted again in the texts that it has returned. The tokens of a text
are what stands between its spaces, and those that begin with a command letter are its commands, so
the count of a letter is the number of tokens that begin with it, over all texts together.
-/

namespace VectorPath

/-- What stands between the spaces of a text. -/
def tokens (text : String) : List (List Char) := text.toList.splitOn ' '

/-- How many tokens of some texts begin with a letter of a choice. -/
def tokenCount (select : Char → Bool) (texts : List String) : ℕ :=
  (texts.flatMap tokens).countP fun token => token.head?.any select

/-- The counts are those of the tokens of some texts. -/
structure Statistics.CountsTokens (statistics : Statistics) (texts : List String) : Prop where
  letters : ∀ form : Form, countIn (String.singleton form.letter) statistics.counts =
    tokenCount (fun c => c == form.letter) texts
  segments : statistics.segments = tokenCount isCommandLetter texts
  relative : statistics.relativeCount =
    tokenCount (fun c => isCommandLetter c && c.isLower) texts

section Tokens

variable {select : Char → Bool}

/-- Only command letters matter to a choice among them. -/
theorem tokenCount_eq (h : ∀ c, select c = true → isCommandLetter c = true) (texts : List String) :
    tokenCount select texts =
      (texts.flatMap fun text => commandLetters text.toList).countP select := by
  have hhead : ∀ head : Option Char,
      ((head.filter isCommandLetter).map select).getD false = head.any select := by
    intro head
    cases head with
    | none => rfl
    | some c =>
        cases hc : isCommandLetter c with
        | true => simp [Option.filter, hc]
        | false =>
            have hselect : select c = false := by
              apply Bool.eq_false_of_not_eq_true
              intro hselect
              rw [h c hselect] at hc
              cases hc
            simp [Option.filter, hc, hselect]
  unfold tokenCount commandLetters tokens
  rw [← List.filterMap_flatMap, List.countP_filterMap]
  simp only [hhead]

theorem isLower_form_letter (form : Form) : form.letter.isLower = form.relative := by
  obtain ⟨kind, relative⟩ := form
  cases kind <;> cases relative <;> rfl

end Tokens

def Answered.text? (m : Answered) : Option String := m.outcome.toOption

namespace Request

variable {writing : WritingSettings} {files : Files} {cs : List Command} {text : String}

theorem commands_of_writtenLoaded {loaded : Outcome (List Command)}
    (h : writtenLoaded writing loaded = .ok (cs, text)) : writing.commands cs = .ok text := by
  obtain ⟨ds, -, hrest⟩ := bind_eq_ok.mp h
  obtain ⟨t, ht, hpair⟩ := bind_eq_ok.mp hrest
  obtain ⟨rfl, rfl⟩ := Prod.mk.inj (Except.ok.inj hpair)
  exact ht

/-- The text of a request is the text of its commands. -/
theorem commands_of_written [Depth] {r : Request} (h : r.written writing files = .ok (cs, text)) :
    writing.commands cs = .ok text := by
  cases r with
  | items vs source =>
      have hcs : vs = cs.map Command.toValue := segments_of_written h
      obtain ⟨t, ht, hpair⟩ := bind_eq_ok.mp h
      rw [← WritingSettings.pathOf_toValue, ← hcs, ← (Prod.mk.inj (Except.ok.inj hpair)).2]
      exact ht
  | document place input => exact commands_of_writtenLoaded h
  | glyph place name => exact commands_of_writtenLoaded h

end Request

/-- Calls whose segments are commands with the letters of the tokens of the returned texts. -/
def Spelled [Depth] (calls : List Answered) : Prop :=
  ∃ cs : List Command, calls.flatMap Answered.segments = cs.map Command.toValue ∧
    ((calls.filterMap Answered.text?).flatMap fun text => commandLetters text.toList) =
      cs.map Command.letter

namespace Spelled

variable [Depth]

theorem nil : Spelled [] := ⟨[], rfl, rfl⟩

theorem append {calls more : List Answered} (h : Spelled calls) (h' : Spelled more) :
    Spelled (calls ++ more) := by
  obtain ⟨cs, hsegments, hletters⟩ := h
  obtain ⟨ds, hsegments', hletters'⟩ := h'
  refine ⟨cs ++ ds, ?_, ?_⟩
  · rw [List.flatMap_append, hsegments, hsegments', List.map_append]
  · rw [List.filterMap_append, List.flatMap_append, hletters, hletters', List.map_append]

/-- One call returns a text with the letters of its segments, or neither. -/
theorem answer (p : Processor) (c : Asked) :
    Spelled [⟨c, (p.answer c.session c.request).outcome⟩] := by
  rw [Processor.answer_outcome]
  cases hwritten : c.request.written p.writing c.session.files with
  | error f => exact ⟨[], rfl, rfl⟩
  | ok written =>
      refine ⟨written.1, ?_, ?_⟩
      · rw [List.flatMap_singleton]
        exact Request.segments_of_written hwritten
      · have hletters := letters_of_commands (Request.commands_of_written hwritten)
        rw [← hletters]
        exact List.flatMap_singleton ..

theorem run (p : Processor) (calls : List Asked) : Spelled (p.run calls).1 := by
  induction calls generalizing p with
  | nil => exact nil
  | cons c calls ih => exact (answer p c).append (ih _)

end Spelled

/-- A ledger of calls counts the tokens of the texts that they returned. -/
theorem Statistics.IsLedger.countsTokens [Depth] {statistics : Statistics} {calls : List Answered}
    (h : statistics.IsLedger calls) (hspelled : Spelled calls) :
    statistics.CountsTokens (calls.filterMap Answered.text?) := by
  obtain ⟨cs, hsegments, hletters⟩ := hspelled
  constructor
  · intro form
    rw [tokenCount_eq, hletters, h.letters, hsegments, Value.countP_hasLetter, List.countP_map]
    · simp [Function.comp_def, beq_eq_decide]
    · intro c hc
      rw [eq_of_beq hc]
      exact isCommandLetter_letter form
  · rw [tokenCount_eq fun c hc => hc, hletters, h.segments, hsegments, List.length_map,
      List.countP_map, eq_comm, List.countP_eq_length]
    intro c _
    exact isCommandLetter_letter c.form
  · rw [tokenCount_eq, hletters, h.relative, hsegments, Value.countP_isRelative, List.countP_map]
    · congr 2
      funext c
      change _ = (isCommandLetter c.form.letter && c.form.letter.isLower)
      rw [isCommandLetter_letter, isLower_form_letter, Bool.true_and]
      exact isLower_letter c.form
    · intro c hc
      exact (Bool.and_eq_true_iff.mp hc).1

/-- After any calls the statistics of a new processor count the commands in the texts that the calls
returned: each letter, all letters together and the small letters. -/
theorem texts_account_for_statistics [Depth] (settings : Settings) (quiet : Bool) (s : Session)
    {p : Processor} (h : (Processor.start settings quiet s).1 = .ok p) (calls : List Asked) :
    (p.run calls).2.statistics.CountsTokens ((p.run calls).1.filterMap Answered.text?) := by
  have hempty : p.statistics.IsLedger [] := by
    rw [Processor.start_eq h]
    exact Statistics.IsLedger.empty
  exact (hempty.run calls).countsTokens (Spelled.run p calls)

/-- An arc of numbers that are not finite, a document with such numbers, and an item that is no
command. -/
def boundlessCalls (s : Session) : List Asked :=
  [⟨.items (boundlessArc.map Command.toValue) "given", s⟩,
    ⟨.document Place.standardInput Document.overflowing, s⟩, ⟨.items [.null] "null", s⟩]

open scoped Depth in
/-- The words for what is not finite begin with no command letter. -/
theorem boundless_texts_account_for_statistics :
    let s : Session := .start ⟨"T", "T"⟩ ⟨["w"], []⟩ ""
    ∃ p, (Processor.start {} true s).1 = .ok p ∧
      (p.run (boundlessCalls s)).2.statistics.CountsTokens
        ((p.run (boundlessCalls s)).1.filterMap Answered.text?) := by
  intro s
  have hstart : (Processor.start {} true s).1 = .ok ⟨{}, {}⟩ := rfl
  exact ⟨_, hstart, texts_account_for_statistics {} true s hstart (boundlessCalls s)⟩

end VectorPath
