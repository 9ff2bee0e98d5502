import VectorPath.CommandLine.Invocation
import VectorPath.Proofs.Outcome

/-!
# What a command line asks for

A command line that asks for a path names a subcommand, and its arguments are split into options and
operands. Four of the options only say what is reported and where. Whatever else a path depends on,
its source and the way its numbers are written, is told from the other options and the operands,
however integers may be written.
-/

namespace VectorPath.CommandLine

variable {integerOf : String → Option Int}

/-- Options for the log, the summary and what is kept off the screen. -/
def OptionKey.reports : OptionKey → Bool
  | .logFile | .logLevel | .stats | .quiet => true
  | _ => false

namespace SplitArguments

/-- Split arguments without the options that only report. -/
def request (a : SplitArguments) : SplitArguments :=
  { a with options := a.options.filter fun option => !option.1.reports }

variable {key : OptionKey}

theorem selects_request (h : key.reports = false) (option : OptionKey × String) :
    ((!option.1.reports) && (option.1 == key)) = (option.1 == key) := by
  cases hkey : option.1 == key with
  | false => exact Bool.and_false _
  | true =>
      rw [eq_of_beq hkey, h]
      rfl

theorem last_request (h : key.reports = false) (a : SplitArguments) :
    a.request.last? key = a.last? key := by
  unfold last? request
  simp only [← List.filter_reverse, List.find?_filter, Bool.decide_and, Bool.decide_eq_true,
    selects_request h]

theorem has_request (h : key.reports = false) (a : SplitArguments) :
    a.request.has key = a.has key := by
  unfold has request
  simp only [List.any_filter, selects_request h]

end SplitArguments

/-- A command line names a subcommand, and the arguments after it split in this way. -/
def Names (arguments : List String) (c : Subcommand) (a : SplitArguments) : Prop :=
  ∃ global rest, split globalForms false arguments = .ok global ∧
    globalRequest? global = none ∧ global.operands = c.name :: rest ∧
    split jobForms true rest = .ok a

/-- Two command lines with the same subcommand, the same operands and the same options, except for
options that only report. -/
def SameRequest (arguments arguments' : List String) : Prop :=
  ∃ c a a', Names arguments c a ∧ Names arguments' c a' ∧ a.request = a'.request

/-- What a job is read from. -/
def Describes (integerOf : String → Option Int) (c : Subcommand) (a : SplitArguments) (job : Job) :
    Prop :=
  ∃ precision logFile source, precisionIn integerOf a = .ok precision ∧
    logFileIn a = .ok logFile ∧ sourceOf c a.operands = .ok source ∧
    job = ⟨source, settingsOf a precision logFile, a.has .stats, a.has .quiet⟩

theorem Subcommand.eq_name_of_ofName? {name : String} {c : Subcommand}
    (h : Subcommand.ofName? name = some c) : name = c.name := by
  have hfound := List.find?_some h
  exact (eq_of_beq hfound).symm

theorem Subcommand.ofName?_name (c : Subcommand) : Subcommand.ofName? c.name = some c := by
  cases c <;> rfl

theorem globalRequest_ne_job (a : SplitArguments) (job : Job) :
    globalRequest? a ≠ some (.job job) := by
  intro h
  obtain ⟨⟨key, value⟩, -, hjob⟩ := List.exists_of_findSome?_eq_some h
  cases key <;> cases hjob

theorem misplacedRequest_ne_job (name : String) (arguments : List String) (job : Job) :
    misplacedRequest name arguments ≠ .ok (.job job) := by
  intro h
  obtain ⟨a, -, hjob⟩ := bind_eq_ok.mp h
  cases hrequest : globalRequest? a with
  | none =>
      rw [hrequest] at hjob
      cases hjob
  | some request =>
      rw [hrequest] at hjob
      rw [Except.ok.inj hjob] at hrequest
      exact globalRequest_ne_job a job hrequest

theorem describes_of_readJob {c : Subcommand} {rest : List String} {job : Job}
    (h : readJob integerOf c rest = .ok (.job job)) :
    ∃ a, split jobForms true rest = .ok a ∧ Describes integerOf c a job := by
  obtain ⟨a, hsplit, h⟩ := bind_eq_ok.mp h
  refine ⟨a, hsplit, ?_⟩
  split_ifs at h
  · cases h
  · obtain ⟨precision, hprecision, h⟩ := bind_eq_ok.mp h
    obtain ⟨logFile, hlog, h⟩ := bind_eq_ok.mp h
    obtain ⟨source, hsource, h⟩ := bind_eq_ok.mp h
    exact ⟨precision, logFile, source, hprecision, hlog, hsource,
      (Invocation.job.inj (Except.ok.inj h)).symm⟩

/-- A command line that is read as a job names a subcommand with arguments that describe it. -/
theorem exists_describes {arguments : List String} {job : Job}
    (h : read integerOf arguments = .ok (.job job)) :
    ∃ c a, Names arguments c a ∧ Describes integerOf c a job := by
  obtain ⟨global, hglobal, h⟩ := bind_eq_ok.mp h
  cases hrequest : globalRequest? global with
  | some request =>
      rw [hrequest] at h
      rw [Except.ok.inj h] at hrequest
      exact absurd hrequest (globalRequest_ne_job global job)
  | none =>
      rw [hrequest] at h
      cases hoperands : global.operands with
      | nil =>
          rw [hoperands] at h
          cases h
      | cons name rest =>
          rw [hoperands] at h
          dsimp only at h
          cases hname : Subcommand.ofName? name with
          | none =>
              rw [hname] at h
              exact absurd h (misplacedRequest_ne_job name _ job)
          | some c =>
              rw [hname] at h
              obtain ⟨a, hsplit, hjob⟩ := describes_of_readJob h
              rw [Subcommand.eq_name_of_ofName? hname] at hoperands
              exact ⟨c, a, ⟨global, rest, hglobal, hrequest, hoperands, hsplit⟩, hjob⟩

theorem Names.unique {arguments : List String} {c c' : Subcommand} {a a' : SplitArguments}
    (h : Names arguments c a) (h' : Names arguments c' a') : c = c' ∧ a = a' := by
  obtain ⟨global, rest, hglobal, -, hoperands, hsplit⟩ := h
  obtain ⟨global', rest', hglobal', -, hoperands', hsplit'⟩ := h'
  rw [hglobal] at hglobal'
  obtain rfl := Except.ok.inj hglobal'
  rw [hoperands] at hoperands'
  obtain ⟨hname, rfl⟩ := List.cons.inj hoperands'
  rw [hsplit] at hsplit'
  have hfound := Subcommand.ofName?_name c
  rw [hname, Subcommand.ofName?_name] at hfound
  exact ⟨(Option.some.inj hfound).symm, Except.ok.inj hsplit'⟩

theorem precisionIn_request (a : SplitArguments) :
    precisionIn integerOf a.request = precisionIn integerOf a := by
  unfold precisionIn
  rw [SplitArguments.last_request rfl]

/-- The source and the writing settings of a job do not depend on options that only report. -/
theorem Describes.request_eq {c : Subcommand} {a a' : SplitArguments} {job job' : Job}
    (h : Describes integerOf c a job) (h' : Describes integerOf c a' job')
    (hrequest : a.request = a'.request) :
    job.source = job'.source ∧ job.settings.writing = job'.settings.writing := by
  obtain ⟨precision, logFile, source, hprecision, -, hsource, rfl⟩ := h
  obtain ⟨precision', logFile', source', hprecision', -, hsource', rfl⟩ := h'
  have hoperands : a.operands = a'.operands := (congrArg SplitArguments.operands hrequest :)
  rw [hoperands, hsource'] at hsource
  rw [← precisionIn_request, hrequest, precisionIn_request, hprecision'] at hprecision
  have hreject : a.has .rejectNonFinite = a'.has .rejectNonFinite := by
    rw [← SplitArguments.has_request rfl a, hrequest, SplitArguments.has_request rfl a']
  obtain rfl := Except.ok.inj hprecision
  refine ⟨(Except.ok.inj hsource).symm, ?_⟩
  unfold settingsOf
  rw [hreject]

/-- Command lines for the same request come from the same source and are written alike. -/
theorem SameRequest.jobs {arguments arguments' : List String} {job job' : Job}
    (h : SameRequest arguments arguments') (hjob : read integerOf arguments = .ok (.job job))
    (hjob' : read integerOf arguments' = .ok (.job job')) :
    job.source = job'.source ∧ job.settings.writing = job'.settings.writing := by
  obtain ⟨c, a, a', hnames, hnames', hrequest⟩ := h
  obtain ⟨d, b, hd, hdescribes⟩ := exists_describes hjob
  obtain ⟨d', b', hd', hdescribes'⟩ := exists_describes hjob'
  obtain ⟨rfl, rfl⟩ := hd.unique hnames
  obtain ⟨rfl, rfl⟩ := hd'.unique hnames'
  exact hdescribes.request_eq hdescribes' hrequest

end VectorPath.CommandLine
