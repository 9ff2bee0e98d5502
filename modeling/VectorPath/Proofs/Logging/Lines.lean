import VectorPath.Logging.Session
import VectorPath.Proofs.Json.Escaping
import VectorPath.Proofs.Number.Numeral

/-!
# Lines of records

Whatever a record holds, its line consists of printable characters of ASCII. So no text in a record
can end its line, and each record takes exactly one line of the messages and of a log file. The line
is a spelling of an object, and it is read as the fields of the record and nothing else. A record
has a line unless one of its counts has too many digits.
-/

namespace VectorPath

namespace Text

/-- Characters of ASCII that are no control characters. -/
def Visible (cs : List Char) : Prop := ∀ c ∈ cs, 0x20 ≤ c.toNat ∧ c.toNat < 0x7f

instance (cs : List Char) : Decidable (Visible cs) := List.decidableBAll _ cs

namespace Visible

variable {cs ds : List Char} {c : Char}

theorem nil : Visible [] := List.forall_mem_nil _

theorem cons (hc : 0x20 ≤ c.toNat ∧ c.toNat < 0x7f) (h : Visible cs) : Visible (c :: cs) :=
  List.forall_mem_cons.mpr ⟨hc, h⟩

theorem append (h : Visible cs) (h' : Visible ds) : Visible (cs ++ ds) :=
  List.forall_mem_append.mpr ⟨h, h'⟩

theorem flatMap {α : Type} {xs : List α} {f : α → List Char} (h : ∀ x ∈ xs, Visible (f x)) :
    Visible (xs.flatMap f) := by
  intro c hc
  obtain ⟨x, hx, hcx⟩ := List.mem_flatMap.mp hc
  exact h x hx c hcx

theorem newline_not_mem (h : Visible cs) : '\n' ∉ cs := by
  intro hmem
  have hnewline := (h '\n' hmem).1
  revert hnewline
  decide

end Visible

theorem visible_hexDigits (width n : ℕ) : Visible (hexDigits width n) := by
  have hdigit : ∀ k < 16, 0x20 ≤ k.digitChar.toNat ∧ k.digitChar.toNat < 0x7f := by decide
  induction width generalizing n with
  | zero => exact .nil
  | succ width ih =>
      unfold hexDigits hexDigit
      exact (ih (n / 16)).append (.cons (hdigit (n % 16) (Nat.mod_lt n (by decide))) .nil)

theorem visible_escapeChar (c : Char) : Visible (escapeChar c) := by
  unfold escapeChar
  split_ifs with hquote _ _ _ _ _ hplain
  · rcases hquote with rfl | rfl <;> decide
  · decide
  · decide
  · decide
  · decide
  · decide
  · exact .cons hplain .nil
  · apply Visible.flatMap
    intro unit _
    exact .cons (by decide) (.cons (by decide) (visible_hexDigits 4 unit))

theorem visible_escaped (s : String) : Visible (escaped s).toList := by
  unfold escaped
  rw [String.toList_ofList]
  apply Visible.cons (by decide)
  apply Visible.append
  · exact Visible.flatMap fun c _ => visible_escapeChar c
  · exact .cons (by decide) .nil

theorem visible_joinWith {separator : String} (hseparator : Visible separator.toList)
    {ss : List String} (h : ∀ s ∈ ss, Visible s.toList) :
    Visible (joinWith separator ss).toList := by
  fun_induction joinWith separator ss with
  | case1 => exact .nil
  | case2 s => exact h s (List.mem_singleton_self s)
  | case3 s rest _ ih =>
      rw [String.toList_append, String.toList_append]
      obtain ⟨hs, hrest⟩ := List.forall_mem_cons.mp h
      exact (hs.append hseparator).append (ih hrest)

end Text

theorem Layout.visible_integer (i : ℤ) : Text.Visible (Layout.integer i) := by
  unfold integer
  apply Text.Visible.append
  · unfold minus
    split_ifs <;> decide
  · intro c hc
    have hdigit := isDecimalDigit_natural i.natAbs c hc
    unfold isDecimalDigit at hdigit
    rw [Bool.and_eq_true, decide_eq_true_eq, decide_eq_true_eq] at hdigit
    have hlow : '0'.toNat ≤ c.toNat := hdigit.1
    have hhigh : c.toNat ≤ '9'.toNat := hdigit.2
    exact ⟨le_trans (by decide) hlow, lt_of_le_of_lt hhigh (by decide)⟩

namespace Record

theorem visible_spelling (field : RecordField) : Text.Visible field.spelling.toList := by
  cases field with
  | null => decide
  | text s => exact Text.visible_escaped s
  | count n =>
      unfold RecordField.spelling
      rw [String.toList_ofList]
      exact Layout.visible_integer n

theorem visible_memberText (field : String × RecordField) :
    Text.Visible (memberText field.1 field.2.spelling).toList := by
  unfold memberText
  rw [String.toList_append, String.toList_append]
  exact ((Text.visible_escaped field.1).append (by decide)).append (visible_spelling field.2)

/-- The line of a record holds nothing but printable characters of ASCII. -/
theorem visible_line (time : String) (r : Record) : Text.Visible (r.line time).toList := by
  unfold line lineOf
  rw [String.toList_append, String.toList_append]
  apply Text.Visible.append _ (by decide)
  apply Text.Visible.append (by decide)
  apply Text.visible_joinWith (by decide)
  intro s hs
  obtain ⟨field, -, rfl⟩ := List.mem_map.mp hs
  exact visible_memberText field

theorem newline_not_mem_line (time : String) (r : Record) : '\n' ∉ (r.line time).toList :=
  (visible_line time r).newline_not_mem

/-- In a log file nothing but the time before a record could end its line. -/
theorem newline_not_mem_fileLine {clock : String} (h : '\n' ∉ clock.toList) (time : String)
    (r : Record) : '\n' ∉ (r.fileLine clock time).toList := by
  have hlevel : '\n' ∉ (padded r.level.name).toList := by
    cases r.level <;> decide
  have hlogger : '\n' ∉ logger.toList := by decide
  have hbar : '\n' ∉ " | ".toList := by decide
  have hline := newline_not_mem_line time r
  unfold fileLine joinWith joinWith joinWith joinWith
  simp only [String.toList_append, List.mem_append, h, hlevel, hlogger, hbar, hline, or_self,
    not_false_eq_true]

theorem line_suffix_fileLine (clock time : String) (r : Record) :
    (r.line time).toList <:+ (r.fileLine clock time).toList := by
  unfold fileLine joinWith joinWith joinWith joinWith
  simp only [String.toList_append]
  exact (List.suffix_append _ _).trans ((List.suffix_append _ _).trans (List.suffix_append _ _))

end Record

open Json

def RecordField.toValue : RecordField → Value
  | .null => .null
  | .text s => .text s
  | .count n => .int n

namespace Record

/-- The fields of a line under their names. -/
def entries (fields : List (String × RecordField)) : List (String × Value) :=
  fields.map fun field => (field.1, field.2.toValue)

/-- The object that the line of a record spells. -/
def object (time : String) (r : Record) : Value := .record (entries (r.allFields time))

/-- No count of a record has more digits than a text may have. -/
def HasShortCounts (time : String) (r : Record) : Prop :=
  (r.object time).holdsLongInteger = false

theorem toJson_eq (field : RecordField) :
    field.toJson =
      if field.toValue.holdsLongInteger then mishap .integerTextTooLong
      else .ok field.spelling := by
  cases field <;> rfl

/-- The members of a line, if all counts have texts. -/
theorem mapM_toJson (fields : List (String × RecordField)) :
    (fields.mapM fun field => do return memberText field.1 (← field.2.toJson)) =
      if Value.anyLongEntry (entries fields) then mishap .integerTextTooLong
      else .ok (fields.map fun field => memberText field.1 field.2.spelling) := by
  induction fields with
  | nil => rfl
  | cons field rest ih =>
      have hmany : Value.anyLongEntry (entries (field :: rest)) =
          (field.2.toValue.holdsLongInteger || Value.anyLongEntry (entries rest)) := by rfl
      rw [List.mapM_cons, ih, toJson_eq, hmany]
      cases field.2.toValue.holdsLongInteger with
      | true => rfl
      | false => cases Value.anyLongEntry (entries rest) <;> rfl

/-- A record has its line unless a count is too long. -/
theorem render_eq (time : String) (r : Record) :
    r.render time =
      if (r.object time).holdsLongInteger then mishap .integerTextTooLong
      else .ok (r.line time) := by
  have hmany : (r.object time).holdsLongInteger =
      Value.anyLongEntry (entries (r.allFields time)) := by
    rfl
  unfold render
  rw [mapM_toJson, hmany]
  cases Value.anyLongEntry (entries (r.allFields time)) <;> rfl

theorem scalarText_spelling (field : RecordField) :
    ScalarText field.toValue field.spelling.toList := by
  cases field with
  | null => exact .null
  | text s => exact .text (Text.quotedText_escaped s)
  | count n => exact .number (.int n)

theorem memberText_spelling (field : String × RecordField) :
    MemberText ScalarText (field.1, field.2.toValue)
      (memberText field.1 field.2.spelling).toList := by
  have hmember : MemberText ScalarText (field.1, field.2.toValue)
      ((Text.escaped field.1).toList ++ ([] ++ ':' :: ([' '] ++ field.2.spelling.toList))) :=
    .mk [] [' '] (by decide) (by decide) (Text.quotedText_escaped field.1)
      (scalarText_spelling field.2)
  unfold memberText
  rw [String.toList_append, String.toList_append, List.append_assoc]
  exact hmember

theorem separated_members {fields : List (String × RecordField)} (h : fields ≠ [])
    {before : List Char} (hbefore : Blanks before) :
    Separated (Padded (MemberText ScalarText)) (entries fields)
      (before ++ (joinWith ", "
        (fields.map fun field => memberText field.1 field.2.spelling)).toList) := by
  induction fields generalizing before with
  | nil => exact absurd rfl h
  | cons field rest ih =>
      have hfield : Padded (MemberText ScalarText) (field.1, field.2.toValue)
          (before ++ ((memberText field.1 field.2.spelling).toList ++ [])) :=
        .mk before [] hbefore (by decide) (memberText_spelling field)
      rw [List.append_nil] at hfield
      cases rest with
      | nil => exact .single hfield
      | cons next rest =>
          -- The blank behind a comma belongs to the part that follows.
          have hrest : Separated (Padded (MemberText ScalarText)) (entries (next :: rest))
              ([' '] ++ _) := ih (List.cons_ne_nil next rest) (by decide)
          have hseparated := Separated.cons hfield hrest
          rw [List.append_assoc] at hseparated
          rw [List.map_cons, List.map_cons, joinWith, String.toList_append, String.toList_append,
            List.append_assoc]
          · exact hseparated
          · exact List.cons_ne_nil _ _

section Names

variable {key : String} {value : RecordField} {fields : List (String × RecordField)}

theorem setField_ne_nil : setField key value fields ≠ [] := by
  cases fields with
  | nil => exact List.cons_ne_nil _ _
  | cons field rest =>
      unfold setField
      split_ifs <;> exact List.cons_ne_nil _ _

theorem map_fst_setField :
    (setField key value fields).map Prod.fst =
      if key ∈ fields.map Prod.fst then fields.map Prod.fst else fields.map Prod.fst ++ [key] := by
  induction fields with
  | nil => rfl
  | cons field rest ih =>
      unfold setField
      by_cases hkey : field.1 = key
      · simp [hkey]
      · rw [if_neg hkey, List.map_cons, ih]
        by_cases hmem : key ∈ rest.map Prod.fst
        · simp [hmem]
        · simp [hmem, Ne.symm hkey]

theorem nodup_setField (h : (fields.map Prod.fst).Nodup) :
    ((setField key value fields).map Prod.fst).Nodup := by
  rw [map_fst_setField]
  split_ifs with hmem
  · exact h
  · exact List.nodup_append.mpr ⟨h, List.pairwise_singleton _ key, by
      rintro name hname _ hsame rfl
      exact hmem (List.mem_singleton.mp hsame ▸ hname)⟩

end Names

variable {time : String} {r : Record}

theorem nodup_allFields (h : (r.fields.map Prod.fst).Nodup) :
    ((r.allFields time).map Prod.fst).Nodup :=
  nodup_setField (nodup_setField (nodup_setField (nodup_setField h)))

/-- The line of a record is read as its fields, whatever texts are in them. -/
theorem parse_line [Depth] (hnames : (r.fields.map Prod.fst).Nodup)
    (hshort : r.HasShortCounts time) : Json.parse (r.line time).toList = .ok (r.object time) := by
  have hmembers :
      Separated (Padded (MemberText ScalarText)) (entries (r.allFields time)) ([] ++ _) :=
    separated_members setField_ne_nil (by decide)
  have hkeys : ((entries (r.allFields time)).map Prod.fst).Nodup := by
    unfold entries
    rw [List.map_map]
    exact nodup_allFields hnames
  have hspells : Spells 1 (r.object time) (r.line time).toList := by
    unfold line lineOf
    rw [String.toList_append, String.toList_append]
    exact .inr (.record hkeys hmembers)
  have hpadded : Padded (Spells 1) (r.object time) ([] ++ ((r.line time).toList ++ [])) :=
    .mk [] [] (by decide) (by decide) hspells
  rw [List.append_nil, List.nil_append] at hpadded
  exact parse_spelled hpadded (Nat.le_trans (by decide) Depth.three_le_brackets) hshort

end Record

end VectorPath
