import VectorPath.Proofs.Logging.Lines
import VectorPath.Proofs.Logging.Replacement
import VectorPath.Proofs.Text.Utf8

/-!
# Reading records back

Whatever texts a record holds, its line is read as these texts and nothing else. Together with the
lines being whole ones, this tells the calls of the logger from the messages and from the log file:
one line for each call that returns and whose level passes, with the very data of the call on it. A
call does not return if one of its counts has too many digits for a text, and then it leaves
nothing.
-/

namespace VectorPath

/-- What the logger of a run is called with. -/
inductive LogCall
  | loaded (source : String) (count : ℤ)
  | encoded (source : String) (commands : List Command) (length : ℤ)
  | failed (source : String) (fault : Fault)
  /-- An error that is no fault of the library, with its text and the name of its class. -/
  | raised (source message name : String)

namespace LogCall

def record : LogCall → Record
  | loaded source count => .loaded source count
  | encoded source commands length => .encoded source commands.length length
  | failed source f => .failed source f
  | raised source message name =>
      { level := .error
        event := "Encoding failed"
        fields := [("source", .text source), ("error", .text message), ("error_type", .text name)] }

/-- What a call gives to its record. -/
def given : LogCall → List (String × Value)
  | loaded source count => [("source", .text source), ("segments", .int count)]
  | encoded source commands length =>
      [("source", .text source), ("segments", .int commands.length), ("length", .int length)]
  | failed source f =>
      [("source", .text source), ("error", .text f.message), ("error_type", .text f.name)]
  | raised source message name =>
      [("source", .text source), ("error", .text message), ("error_type", .text name)]

/-- The entries of the object of a call: what it gives, and what every record has. -/
def entries (stamp : String) (c : LogCall) : List (String × Value) :=
  c.given ++ [("event", .text c.record.event), ("logger", .text Record.logger),
    ("level", .text c.record.level.word), ("timestamp", .text stamp)]

/-- Whether a call returns: none of its counts has too many digits for a text. -/
def returns (c : LogCall) : Bool := c.given.all fun entry => !entry.2.holdsLongInteger

def outcome (c : LogCall) : Outcome Unit :=
  if c.returns then .ok () else mishap .integerTextTooLong

/-- A text of printable characters of ASCII from which a call is read back. -/
def IsReadFrom [Depth] (stamp : String) (c : LogCall) (json : List Char) : Prop :=
  Text.Visible json ∧ Json.parse json = .ok (.record (c.entries stamp))

/-- What stands before the object on a line of a log file. -/
def lineHead (lineStart : String) (c : LogCall) : List Char :=
  (joinWith " | " [lineStart, Record.padded c.record.level.name, Record.logger, ""]).toList

/-- A line of a log file from which a call is read back. -/
def IsReadFromFile [Depth] (clock : Clock) (c : LogCall) (line : List Char) : Prop :=
  ∃ json, line = c.lineHead clock.lineStart ++ json ∧ c.IsReadFrom clock.stamp json

theorem object_record (stamp : String) (c : LogCall) :
    c.record.object stamp = .record (c.entries stamp) := by
  cases c <;> rfl

theorem holdsLongInteger_object (stamp : String) (c : LogCall) :
    (c.record.object stamp).holdsLongInteger = !c.returns := by
  have hadded : ([("event", .text c.record.event), ("logger", .text Record.logger),
      ("level", .text c.record.level.word), ("timestamp", .text stamp)] :
        List (String × Value)).any (fun entry => entry.2.holdsLongInteger) = false := by rfl
  rw [object_record, Value.holdsLongInteger, Json.anyLongEntry_eq]
  unfold entries returns
  rw [List.any_append, hadded, Bool.or_false, List.not_all_eq_any_not]
  simp only [Bool.not_not]

theorem nodup_fields (c : LogCall) : (c.record.fields.map Prod.fst).Nodup := by
  cases c <;> simp [record, Record.loaded, Record.encoded, Record.failed]

theorem isReadFrom_line [Depth] {c : LogCall} (h : c.returns = true) (stamp : String) :
    c.IsReadFrom stamp (c.record.line stamp).toList := by
  have hshort : c.record.HasShortCounts stamp := by
    unfold Record.HasShortCounts
    rw [holdsLongInteger_object, h]
    rfl
  refine ⟨Record.visible_line stamp c.record, ?_⟩
  rw [← object_record]
  exact Record.parse_line c.nodup_fields hshort

theorem isReadFromFile_line [Depth] {c : LogCall} (h : c.returns = true) (clock : Clock) :
    c.IsReadFromFile clock (c.record.fileLine clock.lineStart clock.stamp).toList := by
  refine ⟨_, ?_, c.isReadFrom_line h clock.stamp⟩
  simp [Record.fileLine, lineHead, joinWith]

end LogCall

/-- The text consists of whole lines, and these stand for the items one by one. -/
def OneLineEach {α : Type} (R : α → List Char → Prop) (xs : List α) (text : String) : Prop :=
  ∃ lines, text.toList.splitOn '\n' = lines ++ [[]] ∧ List.Forall₂ R xs lines

theorem oneLineEach_join {α : Type} {R : α → List Char → Prop} {f : α → String} {xs : List α}
    (h : ∀ x ∈ xs, '\n' ∉ (f x).toList ∧ R x (f x).toList) :
    OneLineEach R xs (String.join (xs.map fun x => f x ++ "\n")) := by
  induction xs with
  | nil => exact ⟨[], by rw [List.map_nil, String.toList_join]; rfl, .nil⟩
  | cons x xs ih =>
      obtain ⟨⟨hnewline, hx⟩, hxs⟩ := List.forall_mem_cons.mp h
      obtain ⟨lines, hsplit, hlines⟩ := ih hxs
      refine ⟨(f x).toList :: lines, ?_, .cons hx hlines⟩
      rw [String.toList_join] at hsplit ⊢
      have hend : "\n".toList = ['\n'] := rfl
      rw [List.map_cons, List.flatMap_cons, String.toList_append, hend, List.append_assoc,
        List.singleton_append, List.splitOn_append_cons_self_of_not_mem hnewline, hsplit]
      rfl

namespace Session

/-- Calls of the logger one after the other, each with what it comes to, and the session after them.
Whoever calls goes on after a mishap. -/
def logged (s : Session) : List LogCall → List (Outcome Unit) × Session
  | [] => ([], s)
  | c :: rest =>
      let (o, next) := s.log c.record
      let (os, t) := next.logged rest
      (o :: os, t)

theorem log_call (s : Session) (c : LogCall) :
    s.log c.record = (c.outcome, if c.returns then s.emit c.record else s) := by
  unfold log LogCall.outcome
  rw [Record.render_eq, LogCall.holdsLongInteger_object]
  cases c.returns <;> rfl

/-- The calls that return are logged, and the others do nothing. -/
theorem logged_eq (s : Session) (calls : List LogCall) :
    s.logged calls = (calls.map LogCall.outcome,
      ((calls.filter LogCall.returns).map LogCall.record).foldl emit s) := by
  induction calls generalizing s with
  | nil => rfl
  | cons c rest ih =>
      rw [logged, log_call]
      dsimp only
      rw [ih]
      cases hreturns : c.returns with
      | true =>
          rw [List.filter_cons_of_pos hreturns]
          rfl
      | false =>
          rw [List.filter_cons_of_neg (by simp [hreturns])]
          rfl

variable {base s t : Session} {settings : LogSettings} {quiet : Bool} {level : Level}
  {sink? : Option FileSink}

theorem messageText_append {more : List String} (h : t.messages = s.messages ++ more) :
    t.messageText = s.messageText ++ String.join (more.map (· ++ "\n")) := by
  unfold messageText
  rw [h, List.map_append, String.join_append]

theorem flatMap_encodeUtf8 (ts : List String) :
    ts.flatMap Text.encodeUtf8 = Text.encodeUtf8 (String.join ts) := by
  rw [Text.encodeUtf8_eq, String.toList_join, List.flatMap_assoc]
  exact congrArg (fun f => ts.flatMap f) (funext Text.encodeUtf8_eq)

/-- Every call that returns and whose level passes adds one line to the messages. -/
theorem LogsBy.lines_messages [Depth] (h : base.LogsBy level sink? s) (calls : List LogCall) :
    ∃ text, (s.logged calls).2.messageText = s.messageText ++ text ∧
      OneLineEach (LogCall.IsReadFrom base.clock.stamp)
        (calls.filter fun c => level.passes c.record.level && c.returns) text := by
  have hmessages := messageText_append
    (h.logsOnly ((calls.filter LogCall.returns).map LogCall.record)).messages
  rw [List.filter_map, List.map_map, List.map_map, List.filter_filter, h.clock] at hmessages
  rw [logged_eq]
  refine ⟨_, hmessages, oneLineEach_join fun c hc => ⟨?_, ?_⟩⟩
  · exact Record.newline_not_mem_line base.clock.stamp c.record
  · exact c.isReadFrom_line (Bool.and_eq_true_iff.mp (List.mem_filter.mp hc).2).2 base.clock.stamp

/-- Every call that returns and whose level passes adds one line to the log file. -/
theorem LogsBy.lines_file [Depth] {sink : FileSink} (h : base.LogsBy level (some sink) s)
    (hclock : '\n' ∉ base.clock.lineStart.toList) (calls : List LogCall) :
    ∃ text, (s.logged calls).2.files.contentAt sink.location =
        s.files.contentAt sink.location ++ Text.encodeUtf8 text ∧
      OneLineEach (LogCall.IsReadFromFile base.clock)
        (calls.filter fun c => sink.threshold.passes c.record.level && c.returns) text := by
  let passing := calls.filter fun c => sink.threshold.passes c.record.level && c.returns
  have hcontent := (h.logsOnly ((calls.filter LogCall.returns).map LogCall.record)).content
    sink.location
  have hbytes : s.bytesFor (some sink) sink.location
        ((calls.filter LogCall.returns).map LogCall.record) =
      passing.flatMap fun c =>
        Text.encodeUtf8 (c.record.fileLine base.clock.lineStart base.clock.stamp ++ "\n") := by
    unfold bytesFor fileBytes
    dsimp only
    rw [if_pos rfl, List.filter_map, List.flatMap_map, List.filter_filter, h.clock]
    rfl
  have hencoded := flatMap_encodeUtf8
    (passing.map fun c => c.record.fileLine base.clock.lineStart base.clock.stamp ++ "\n")
  rw [List.flatMap_map] at hencoded
  rw [hbytes, hencoded] at hcontent
  rw [logged_eq]
  refine ⟨_, hcontent, oneLineEach_join fun c hc => ⟨?_, ?_⟩⟩
  · exact Record.newline_not_mem_fileLine hclock base.clock.stamp c.record
  · exact c.isReadFromFile_line (Bool.and_eq_true_iff.mp (List.mem_filter.mp hc).2).2 base.clock

/-- After logging has been set up, a call of the logger returns unless a count of its has too many
digits for a text. Every call that returns and whose level passes leaves exactly one line in the
messages and one in the log file, in the order of the calls, the others leave nothing, and the
object on a line is read as what the call has given. In the log file the time stands in front of the
object, so it must not end the line itself. -/
theorem calls_are_read_back [Depth] (h : s.configure settings quiet = (.ok (), t))
    (calls : List LogCall) :
    (t.logged calls).1 = calls.map LogCall.outcome ∧
    (∃ level text, consoleLevel settings quiet = .ok level ∧
      (t.logged calls).2.messageText = t.messageText ++ text ∧
      OneLineEach (LogCall.IsReadFrom s.clock.stamp)
        (calls.filter fun c => level.passes c.record.level && c.returns) text) ∧
    (s.sinkFor? settings).isSome = settings.file.isSome ∧
    ∀ sink, s.sinkFor? settings = some sink → '\n' ∉ s.clock.lineStart.toList →
      ∃ text, (t.logged calls).2.files.contentAt sink.location =
          t.files.contentAt sink.location ++ Text.encodeUtf8 text ∧
        OneLineEach (LogCall.IsReadFromFile s.clock)
          (calls.filter fun c => sink.threshold.passes c.record.level && c.returns) text := by
  obtain ⟨level, u, hsetup, ht⟩ := exists_setUp h
  have hlogs : s.LogsBy level (s.sinkFor? settings) t := by
    rw [ht]
    exact hsetup.logsBy.foldl_emit [_]
  refine ⟨by rw [logged_eq], ?_, hsetup.asked, fun sink hsink hclock => ?_⟩
  · obtain ⟨text, htext, hlines⟩ := hlogs.lines_messages calls
    exact ⟨level, text, hsetup.console, htext, hlines⟩
  · rw [hsink] at hlogs
    exact hlogs.lines_file hclock calls

def infoSettings : LogSettings := { loggingTo "p.log" with consoleLevel := "info" }

/-- Calls whose texts would end their lines, close their quotes or fill in a format. -/
def spoiledCalls : List LogCall :=
  [.loaded "a\nb" 1, .encoded "\", \"level\": \"\\" [] (-1),
    .failed "%s \x7b0\x7d" (.glyph "\x00'\r"), .raised "😀" "\u2028\x7f" "ValueError"]

open scoped Depth in
theorem spoiledCalls_are_read_back :
    ∃ t, rotatingSession.configure infoSettings false = (.ok (), t) ∧
      (t.logged spoiledCalls).1 = [.ok (), .ok (), .ok (), .ok ()] ∧
      (∃ text, (t.logged spoiledCalls).2.messageText = t.messageText ++ text ∧
        OneLineEach (LogCall.IsReadFrom "T") (spoiledCalls.drop 1) text) ∧
      ∃ l text, (t.logged spoiledCalls).2.files.contentAt l =
          t.files.contentAt l ++ Text.encodeUtf8 text ∧
        OneLineEach (LogCall.IsReadFromFile ⟨"T", "T"⟩) spoiledCalls text := by
  have hsetup : rotatingSession.configure infoSettings false =
      (.ok (), (rotatingSession.configure infoSettings false).2) := Prod.ext rfl rfl
  obtain ⟨houtcomes, ⟨level, text, hlevel, htext, hlines⟩, -, hfile⟩ :=
    calls_are_read_back hsetup spoiledCalls
  have hreturns : ∀ c ∈ spoiledCalls, c.returns = true := by decide +kernel
  have hall : ∀ p : LogCall → Bool,
      (spoiledCalls.filter fun c => p c && c.returns) = spoiledCalls.filter p := by
    intro p
    apply List.filter_congr
    intro c hc
    rw [hreturns c hc, Bool.and_true]
  have hinfo : consoleLevel infoSettings false = .ok .info := rfl
  obtain rfl := Except.ok.inj (hlevel.symm.trans hinfo)
  obtain ⟨fileText, hcontent, hfileLines⟩ := hfile _ rfl (by decide)
  rw [hall] at hlines hfileLines
  refine ⟨_, hsetup, houtcomes.trans ?_, ⟨text, htext, hlines⟩, _, fileText, hcontent, hfileLines⟩
  exact List.map_congr_left fun c hc => if_pos (hreturns c hc)

end Session

end VectorPath
