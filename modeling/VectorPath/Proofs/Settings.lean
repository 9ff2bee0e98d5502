import VectorPath.Proofs.Files.Naming
import VectorPath.Proofs.Number.Equality
import VectorPath.Proofs.Text.Integer
import VectorPath.Settings

/-!
# Settings settle in one step

What a value says as settings is told without reading it: an integer may be spelled in many ways, a
place has many names, a key may be missing and others are ignored. Reading accepts exactly the
values that describe settings in this way. The dump of settings describes them as well, so settings
that were read are read again from their dump, and dumped again alike.
-/

namespace VectorPath

variable {α : Type} {v : Value}

namespace Value

/-- A value that gives an integer: a truth value, a number without a fraction, or a text of it. -/
inductive Spells : Value → ℤ → Prop
  | truth (b : Bool) : Spells (.bool b) (if b then 1 else 0)
  | integer (i : ℤ) : Spells (.int i) i
  | whole {x : Binary64} {i : ℤ} (h : x.exact = .rational i) : Spells (.float x) i
  | text {s : String} {i : ℤ} (h : Text.Spells s.toList i) : Spells (.text s) i

/-- What a value says of the number of places. -/
def SaysPrecision (v : Value) : Option (Fin 16) → Prop
  | none => v = .null
  | some p => v.Spells p.val

def SaysPolicy (v : Value) (policy : Policy) : Prop := v = .text policy.name

/-- What a value says of a file: any text names a place. -/
def SaysFile (v : Value) : Option Place → Prop
  | none => v = .null
  | some place => ∃ name, v = .text name ∧ Place.ofText name = place

def SaysText (v : Value) (s : String) : Prop := v = .text s

/-- What an entry says, or the default where there is no entry. -/
def Says (entries : List (String × Value)) (key : String) (default : α)
    (Gives : Value → α → Prop) (a : α) : Prop :=
  (∃ v, lookup key entries = some v ∧ Gives v a) ∨ (lookup key entries = none ∧ default = a)

/-- What a record says of how numbers are written. -/
inductive DescribesWriting : Value → WritingSettings → Prop
  | mk {entries : List (String × Value)} {s : WritingSettings}
      (hprecision : Says entries "precision" none SaysPrecision s.precision)
      (hpolicy : Says entries "non_finite" .passThrough SaysPolicy s.policy) :
      DescribesWriting (.record entries) s

/-- What a record says of where log records go. -/
inductive DescribesLogging : Value → LogSettings → Prop
  | mk {entries : List (String × Value)} {s : LogSettings}
      (hfile : Says entries "log_file" none SaysFile s.file)
      (hconsole : Says entries "log_level" "WARNING" SaysText s.consoleLevel)
      (hlevel : Says entries "file_log_level" "DEBUG" SaysText s.fileLevel) :
      DescribesLogging (.record entries) s

inductive Describes : Value → Settings → Prop
  | mk {entries : List (String × Value)} {s : Settings}
      (hwriting : Says entries "encoder" {} DescribesWriting s.writing)
      (hlogging : Says entries "logging" {} DescribesLogging s.logging) :
      Describes (.record entries) s

end Value

namespace Settings

section Fields

variable {i : ℤ} {p : Fin 16}

theorem placesOfInt_val (p : Fin 16) : placesOfInt p.val = .ok (some p) := by
  unfold placesOfInt
  rw [if_neg (by omega), dif_pos (by simp)]
  rfl

/-- What passes the check is the number of places that the integer is. -/
theorem exists_of_placesOfInt {r : Option (Fin 16)} (h : placesOfInt i = .ok r) :
    ∃ p : Fin 16, i = p.val ∧ r = some p := by
  unfold placesOfInt at h
  split_ifs at h with hlow hhigh
  exact ⟨_, (Int.toNat_of_nonneg (not_lt.mp hlow)).symm, (Except.ok.inj h).symm⟩

/-- However an integer is spelled, it is checked as the integer that it is. -/
theorem readPrecision_of_spells (h : v.Spells i) (hi : i.natAbs < 2 ^ 63) :
    readPrecision v = placesOfInt i := by
  cases h with
  | truth b => rfl
  | integer i => rfl
  | @whole x i h =>
      have hint := (Binary64.toInt?_eq_some_iff x i).mpr h
      have hfinite : x.isFinite = true := by
        cases x with
        | finite => rfl
        | _ => cases h
      simp only [readPrecision, Value.float, hfinite, hint]
      rw [if_neg (by decide), if_neg (not_le.mpr hi)]
  | @text s i h =>
      have hlimit : i.natAbs < 10 ^ (Layout.digitLimit - 1) :=
        lt_of_lt_of_le hi (le_trans (by norm_num) (Nat.pow_le_pow_right (by norm_num) (by decide)
          : 10 ^ 20 ≤ 10 ^ (Layout.digitLimit - 1)))
      have hint := (Text.settingInteger?_eq_some_iff hlimit).mpr h
      simp only [readPrecision, h.not_beginsTooLong hlimit, hint]
      rfl

theorem saysPrecision_of_placesOfInt {r : Option (Fin 16)} (h : v.Spells i)
    (hplaces : placesOfInt i = .ok r) : v.SaysPrecision r := by
  obtain ⟨p, rfl, rfl⟩ := exists_of_placesOfInt hplaces
  exact h

theorem readPrecision_eq_ok_iff {r : Option (Fin 16)} :
    readPrecision v = .ok r ↔ v.SaysPrecision r := by
  constructor
  · intro h
    cases v with
    | null =>
        obtain rfl := Except.ok.inj h
        rfl
    | bool b => exact saysPrecision_of_placesOfInt (.truth b) h
    | number n =>
        cases n with
        | int i => exact saysPrecision_of_placesOfInt (.integer i) h
        | float x =>
            simp only [readPrecision] at h
            split_ifs at h with hfinite
            split at h
            next i hint =>
              split_ifs at h
              exact saysPrecision_of_placesOfInt
                (.whole ((Binary64.toInt?_eq_some_iff x i).mp hint)) h
            next => cases h
    | text s =>
        simp only [readPrecision] at h
        split_ifs at h with hlong
        split at h
        next i hint =>
          exact saysPrecision_of_placesOfInt (.text (Text.spells_of_settingInteger hint)) h
        next => cases h
    | _ => cases h
  · intro h
    cases r with
    | none =>
        rw [show v = .null from h]
        rfl
    | some p =>
        rw [readPrecision_of_spells h (by have := p.isLt; omega), placesOfInt_val]

theorem ofName?_eq_some_iff {name : String} {policy : Policy} :
    Policy.ofName? name = some policy ↔ name = policy.name := by
  unfold Policy.ofName?
  constructor
  · intro h
    split_ifs at h with hpass hreject
    · rw [← Option.some.inj h, hpass]
    · rw [← Option.some.inj h, hreject]
  · rintro rfl
    cases policy with
    | passThrough => rfl
    | reject => rfl

theorem readPolicy_eq_ok_iff {policy : Policy} :
    readPolicy v = .ok policy ↔ v.SaysPolicy policy := by
  constructor
  · intro h
    cases v with
    | text s =>
        simp only [readPolicy] at h
        split at h
        next q hname =>
          obtain rfl := Except.ok.inj h
          exact congrArg Value.text (ofName?_eq_some_iff.mp hname)
        next => cases h
    | _ => cases h
  · rintro rfl
    simp only [readPolicy, ofName?_eq_some_iff.mpr rfl]

theorem readPlace_eq_ok_iff {r : Option Place} : readPlace v = .ok r ↔ v.SaysFile r := by
  constructor
  · intro h
    cases v with
    | null =>
        obtain rfl := Except.ok.inj h
        rfl
    | text s =>
        obtain rfl := Except.ok.inj h
        exact ⟨s, rfl, rfl⟩
    | _ => cases h
  · intro h
    cases r with
    | none =>
        obtain rfl : v = .null := h
        rfl
    | some place =>
        obtain ⟨name, rfl, rfl⟩ := h
        rfl

theorem readText_eq_ok_iff {s : String} : readText v = .ok s ↔ v.SaysText s := by
  constructor
  · intro h
    cases v with
    | text t =>
        obtain rfl := Except.ok.inj h
        rfl
    | _ => cases h
  · rintro rfl
    rfl

end Fields

section Groups

variable {entries : List (String × Value)} {key : String} {default a : α}
  {Gives : Value → α → Prop}

theorem readField_eq_ok_iff {read : Value → Reading α}
    (h : ∀ v a, read v = .ok a ↔ Gives v a) :
    readField entries key default read = .ok a ↔ Value.Says entries key default Gives a := by
  unfold readField Value.Says
  cases Value.lookup key entries with
  | none => simp
  | some v => simp [h]

theorem ofValue_eq_ok_iff {location : List String}
    {read : List String → List (String × Value) → Checked α} :
    ofValue location read v = .ok a ↔
      ∃ entries, v = .record entries ∧ read location entries = .ok a := by
  cases v with
  | record entries => simp [ofValue]
  | _ => simp [ofValue]

theorem readGroup_eq_ok_iff {read : List String → List (String × Value) → Checked α}
    (h : ∀ v a, ofValue [key] read v = .ok a ↔ Gives v a) :
    readGroup entries key default read = .ok a ↔ Value.Says entries key default Gives a := by
  unfold readGroup Value.Says
  cases Value.lookup key entries with
  | none => simp
  | some v => simp [h]

theorem outcome_eq_ok_iff {c : Checked α} : outcome c = .ok a ↔ c = .ok a := by
  cases c with
  | ok a => simp [outcome]
  | error e => simp [outcome, mishap]

theorem writingOfEntries_eq_ok_iff {location : List String} {s : WritingSettings} :
    writingOfEntries location entries = .ok s ↔
      readField entries "precision" none readPrecision = .ok s.precision ∧
      readField entries "non_finite" .passThrough readPolicy = .ok s.policy := by
  unfold writingOfEntries
  obtain ⟨precision, policy⟩ := s
  cases readField entries "precision" none readPrecision with
  | error _ => simp
  | ok p =>
      cases readField entries "non_finite" Policy.passThrough readPolicy with
      | error _ => simp
      | ok q => simp

theorem loggingOfEntries_eq_ok_iff {location : List String} {s : LogSettings} :
    loggingOfEntries location entries = .ok s ↔
      readField entries "log_file" none readPlace = .ok s.file ∧
      readField entries "log_level" "WARNING" readText = .ok s.consoleLevel ∧
      readField entries "file_log_level" "DEBUG" readText = .ok s.fileLevel := by
  unfold loggingOfEntries
  obtain ⟨file, console, level⟩ := s
  cases readField entries "log_file" none readPlace with
  | error _ => simp
  | ok f =>
      cases readField entries "log_level" "WARNING" readText with
      | error _ => simp
      | ok c =>
          cases readField entries "file_log_level" "DEBUG" readText with
          | error _ => simp
          | ok l => simp

theorem ofEntries_eq_ok_iff {s : Settings} :
    ofEntries entries = .ok s ↔
      readGroup entries "encoder" {} writingOfEntries = .ok s.writing ∧
      readGroup entries "logging" {} loggingOfEntries = .ok s.logging := by
  unfold ofEntries
  obtain ⟨writing, logging⟩ := s
  cases readGroup entries "encoder" {} writingOfEntries with
  | error _ =>
      cases readGroup entries "logging" {} loggingOfEntries with
      | error _ => simp
      | ok l => simp
  | ok w =>
      cases readGroup entries "logging" {} loggingOfEntries with
      | error _ => simp
      | ok l => simp

theorem describesWriting_iff {location : List String} {s : WritingSettings} :
    ofValue location writingOfEntries v = .ok s ↔ v.DescribesWriting s := by
  rw [ofValue_eq_ok_iff]
  simp only [writingOfEntries_eq_ok_iff, readField_eq_ok_iff fun _ _ => readPrecision_eq_ok_iff,
    readField_eq_ok_iff fun _ _ => readPolicy_eq_ok_iff]
  constructor
  · rintro ⟨entries, rfl, hprecision, hpolicy⟩
    exact .mk hprecision hpolicy
  · rintro ⟨hprecision, hpolicy⟩
    exact ⟨_, rfl, hprecision, hpolicy⟩

theorem describesLogging_iff {location : List String} {s : LogSettings} :
    ofValue location loggingOfEntries v = .ok s ↔ v.DescribesLogging s := by
  rw [ofValue_eq_ok_iff]
  simp only [loggingOfEntries_eq_ok_iff, readField_eq_ok_iff fun _ _ => readPlace_eq_ok_iff,
    readField_eq_ok_iff fun _ _ => readText_eq_ok_iff]
  constructor
  · rintro ⟨entries, rfl, hfile, hconsole, hlevel⟩
    exact .mk hfile hconsole hlevel
  · rintro ⟨hfile, hconsole, hlevel⟩
    exact ⟨_, rfl, hfile, hconsole, hlevel⟩

theorem describes_iff {location : List String} {s : Settings} :
    ofValue location (fun _ entries => ofEntries entries) v = .ok s ↔ v.Describes s := by
  rw [ofValue_eq_ok_iff]
  simp only [ofEntries_eq_ok_iff, readGroup_eq_ok_iff fun _ _ => describesWriting_iff,
    readGroup_eq_ok_iff fun _ _ => describesLogging_iff]
  constructor
  · rintro ⟨entries, rfl, hwriting, hlogging⟩
    exact .mk hwriting hlogging
  · rintro ⟨hwriting, hlogging⟩
    exact ⟨_, rfl, hwriting, hlogging⟩

end Groups

end Settings

section Dumps

theorem WritingSettings.toValue_describes (s : WritingSettings) :
    s.toValue.DescribesWriting s := by
  refine .mk (.inl ⟨_, rfl, ?_⟩) (.inl ⟨_, rfl, rfl⟩)
  cases s.precision with
  | none => rfl
  | some p => exact .integer p.val

theorem LogSettings.toValue_describes {s : LogSettings}
    (h : ∀ place, s.file = some place → place.IsNormal) : s.toValue.DescribesLogging s := by
  refine .mk (.inl ⟨_, rfl, ?_⟩) (.inl ⟨_, rfl, rfl⟩) (.inl ⟨_, rfl, rfl⟩)
  cases hfile : s.file with
  | none => rfl
  | some place => exact ⟨place.toText, rfl, Place.ofText_toText (h place hfile)⟩

/-- The dump of settings describes them, if the log file has a place as reading makes it. -/
theorem Settings.toValue_describes {s : Settings}
    (h : ∀ place, s.logging.file = some place → place.IsNormal) : s.toValue.Describes s :=
  .mk (.inl ⟨_, rfl, s.writing.toValue_describes⟩) (.inl ⟨_, rfl, LogSettings.toValue_describes h⟩)

theorem Value.DescribesLogging.isNormal {s : LogSettings} (h : v.DescribesLogging s) :
    ∀ place, s.file = some place → place.IsNormal := by
  intro place hplace
  obtain ⟨hfile, -, -⟩ := h
  rw [hplace] at hfile
  rcases hfile with ⟨u, -, name, -, rfl⟩ | ⟨-, hnone⟩
  · exact Place.ofText_isNormal name
  · cases hnone

theorem Value.Describes.isNormal {s : Settings} (h : v.Describes s) :
    ∀ place, s.logging.file = some place → place.IsNormal := by
  obtain ⟨-, ⟨u, -, hlogging⟩ | ⟨-, hdefault⟩⟩ := h
  · exact hlogging.isNormal
  · rw [← hdefault]
    exact nofun

/-- A dump of how numbers are written: no number of places or one from 0 to 15, and one of the two
policies. -/
def Value.IsWritingDump (dump : Value) : Prop :=
  ∃ precision policy, dump = .record [("precision", precision), ("non_finite", .text policy)] ∧
    (precision = .null ∨ ∃ n : ℕ, n ≤ 15 ∧ precision = .int n) ∧
    (policy = "pass_through" ∨ policy = "reject")

theorem WritingSettings.isWritingDump (s : WritingSettings) : s.toValue.IsWritingDump := by
  refine ⟨_, _, rfl, ?_, ?_⟩
  · cases s.precision with
    | none => exact .inl rfl
    | some p => exact .inr ⟨p.val, Nat.le_of_lt_succ p.isLt, rfl⟩
  · cases s.policy with
    | passThrough => exact .inl rfl
    | reject => exact .inr rfl

end Dumps

namespace Settings

theorem ofValue_writing_iff {s : WritingSettings} :
    WritingSettings.ofValue v = .ok s ↔ v.DescribesWriting s :=
  outcome_eq_ok_iff.trans describesWriting_iff

theorem ofValue_logging_iff {s : LogSettings} :
    LogSettings.ofValue v = .ok s ↔ v.DescribesLogging s :=
  outcome_eq_ok_iff.trans describesLogging_iff

theorem read_iff {s : Settings} : Settings.read v = .ok s ↔ v.Describes s :=
  outcome_eq_ok_iff.trans describes_iff

/-- Settings are read from exactly the values that describe them. Their dump is within range and
reads as the same settings, however loosely the value was written. The dump of settings that were
put together from a policy and a place instead does the same. -/
theorem dump_is_fixed_point (v : Value) :
    (∀ s, WritingSettings.ofValue v = .ok s →
      s.toValue.IsWritingDump ∧ WritingSettings.ofValue s.toValue = .ok s) ∧
    (∀ s, LogSettings.ofValue v = .ok s → LogSettings.ofValue s.toValue = .ok s) ∧
    (∀ s, Settings.read v = .ok s →
      s.writing.toValue.IsWritingDump ∧ Settings.read s.toValue = .ok s) ∧
    ((∀ s, WritingSettings.ofValue v = .ok s ↔ v.DescribesWriting s) ∧
      (∀ s, LogSettings.ofValue v = .ok s ↔ v.DescribesLogging s) ∧
      ∀ s, Settings.read v = .ok s ↔ v.Describes s) ∧
    ∀ s : Settings, (∀ place, s.logging.file = some place → ∃ name, place = Place.ofText name) →
      s.writing.toValue.IsWritingDump ∧ Settings.read s.toValue = .ok s := by
  refine ⟨?_, ?_, ?_, ⟨?_, ?_, ?_⟩, ?_⟩
  · intro s _
    exact ⟨s.isWritingDump, ofValue_writing_iff.mpr s.toValue_describes⟩
  · intro s h
    exact ofValue_logging_iff.mpr
      (LogSettings.toValue_describes (ofValue_logging_iff.mp h).isNormal)
  · intro s h
    exact ⟨s.writing.isWritingDump, read_iff.mpr (toValue_describes (read_iff.mp h).isNormal)⟩
  · exact fun s => ofValue_writing_iff
  · exact fun s => ofValue_logging_iff
  · exact fun s => read_iff
  · intro s h
    refine ⟨s.writing.isWritingDump, read_iff.mpr (toValue_describes fun place hplace => ?_)⟩
    obtain ⟨name, rfl⟩ := h place hplace
    exact Place.ofText_isNormal name

/-- Blanks, a sign, zeros in front, an underscore and a fraction around the number of places, parts
that say nothing in the name of the log file, and a key that is not known. -/
def looseSettings : Value := .record [
  ("encoder", .record [("precision", .text " +0__1_2.00\n"), ("places", .int 3)]),
  ("logging", .record [("log_file", .text ".//logs/./a.log/")])]

theorem looseSettings_settle :
    let s : Settings :=
      ⟨⟨some 12, .passThrough⟩, ⟨some ⟨"", ["logs", "a.log"]⟩, "WARNING", "DEBUG"⟩⟩
    Settings.read looseSettings = .ok s ∧ Settings.read s.toValue = .ok s := by
  intro s
  have hread : Settings.read looseSettings = .ok s := by rfl
  exact ⟨hread, ((dump_is_fixed_point looseSettings).2.2.1 s hread).2⟩

end Settings

end VectorPath
