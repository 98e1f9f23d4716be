/-
Module: ComponentAtlas.Proofs.Ledger
Purpose: What a ledger of failures holds, tells and raises after any run of records and
  clearings.
Main exports:
  Report.IsJudged, Act, perform, run, accepted, perform_record, run_reports,
  Summary.Counts, counts_summary, run_keepsLatest
-/
import ComponentAtlas.Ledger
import Mathlib.Algebra.GroupWithZero.Nat
import Mathlib.Data.List.DropRight

namespace ComponentAtlas

/-!
A ledger forgets its oldest report when it is full, and all of them when it is cleared.  So
what it holds depends on the history alone: it is the end of the list of the reports that
were accepted since the last clearing.
-/

namespace Severity

/-- The words of the severities are all that are known. -/
theorem ofLabel?_eq_none_iff {label : String} :
    ofLabel? label = none ↔ label ∉ all.map Severity.label := by
  simp [ofLabel?]

end Severity

/-- Whether work can go on is told by the failure and its severity. -/
def Report.IsJudged (report : Report) : Prop :=
  report.recoverable = isRecoverable report.fault report.severity

/-- After a critical failure work never goes on, whatever its kind and its message. -/
theorem Report.IsJudged.of_critical {report : Report} (isJudged : report.IsJudged)
    (isCritical : report.severity = .critical) : report.recoverable = false := by
  rw [isJudged, isCritical]
  rfl

namespace Ledger

/-- What is asked of a ledger. -/
inductive Act where
  /-- Record a failure under a severity given by its word. -/
  | record (fault : Fault) (operation : String) (filePath : Option String) (severity : String)
  | clear
deriving Repr, DecidableEq

/-- The ledger afterwards, and the report that is given back or the failure that is raised. -/
def perform (ledger : Ledger) : Act → Ledger × Except Fault (Option Report)
  | .clear => (ledger.clear, .ok none)
  | .record fault operation filePath severity =>
    match ledger.recordAs fault operation filePath severity with
    | .error refused => (ledger, .error refused)
    | .ok recorded =>
      (recorded.ledger,
        match recorded.raised with
        | some raised => .error raised
        | none => .ok (some recorded.report))

def run (ledger : Ledger) (acts : List Act) : Ledger :=
  acts.foldl (fun ledger act => (ledger.perform act).1) ledger

/-- The report of a failure whose severity is known. -/
def Act.report? : Act → Option Report
  | .record fault operation filePath severity =>
    (Severity.ofLabel? severity).map (reportOf fault operation filePath)
  | .clear => none

/-- The reports that a history asked to keep since the last clearing. -/
def accepted (acts : List Act) : List Report :=
  (acts.rtakeWhile (· ≠ .clear)).filterMap Act.report?

section

variable {ledger : Ledger} {acts : List Act} {act : Act} {report : Report}

/-!
What one act does.
-/

/-- A failure is recorded in the same way under each severity, but a critical one goes on.
Under any other word nothing is recorded. -/
theorem perform_record (ledger : Ledger) (fault : Fault) (operation : String)
    (filePath : Option String) (severity : String) :
    ledger.perform (.record fault operation filePath severity) =
      match Severity.ofLabel? severity with
      | none => (ledger, .error (.unknownSeverity severity))
      | some known =>
        (ledger.keep (reportOf fault operation filePath known),
          if known = .critical then .error fault
          else .ok (some (reportOf fault operation filePath known))) := by
  simp only [perform, recordAs]
  cases Severity.ofLabel? severity with
  | none => rfl
  | some known => cases known <;> rfl

theorem perform_of_report? (isReport : act.report? = some report) :
    (ledger.perform act).1 = ledger.keep report := by
  cases act with
  | clear => cases isReport
  | record fault operation filePath severity =>
      obtain ⟨known, isKnown, rfl⟩ := Option.map_eq_some_iff.mp isReport
      rw [perform_record, isKnown]

theorem perform_of_refused (isRecord : act ≠ .clear) (refused : act.report? = none) :
    (ledger.perform act).1 = ledger := by
  cases act with
  | clear => exact absurd rfl isRecord
  | record fault operation filePath severity =>
      have unknown : Severity.ofLabel? severity = none := Option.map_eq_none_iff.mp refused
      rw [perform_record, unknown]

theorem perform_capacity (ledger : Ledger) (act : Act) :
    (ledger.perform act).1.capacity = ledger.capacity := by
  cases act with
  | clear => rfl
  | record fault operation filePath severity =>
      rw [perform_record]
      cases Severity.ofLabel? severity <;> rfl

/-!
What a run leaves.
-/

theorem run_append_singleton (ledger : Ledger) (acts : List Act) (act : Act) :
    ledger.run (acts ++ [act]) = ((ledger.run acts).perform act).1 := by
  rw [run, List.foldl_concat]
  rfl

theorem run_capacity (ledger : Ledger) (acts : List Act) :
    (ledger.run acts).capacity = ledger.capacity := by
  induction acts using List.reverseRecOn with
  | nil => rfl
  | append_singleton acts act ih => rw [run_append_singleton, perform_capacity, ih]

theorem accepted_clear (acts : List Act) : accepted (acts ++ [.clear]) = [] := by
  rw [accepted, List.rtakeWhile_concat_neg _ _ _ (by simp)]
  rfl

theorem accepted_record (isRecord : act ≠ .clear) (acts : List Act) :
    accepted (acts ++ [act]) = accepted acts ++ act.report?.toList := by
  rw [accepted, List.rtakeWhile_concat_pos _ _ _ (by simpa using isRecord), List.filterMap_append]
  cases report : act.report? <;> simp [accepted, report]

/-- To keep the last reports, those of before are needed only as far as they were kept. -/
theorem rtake_append_rtake {α : Type} (count : Nat) (items : List α) (item : α) :
    (items.rtake count ++ [item]).rtake count = (items ++ [item]).rtake count := by
  cases count with
  | zero => simp
  | succ count =>
      simp only [List.rtake_eq_reverse_take_reverse, List.reverse_append, List.reverse_reverse,
        List.reverse_singleton, List.singleton_append, List.take_succ_cons, List.take_take]
      congr 3
      omega

/-- A ledger that starts without reports holds the last ones that were accepted since it was
cleared, as many as it has room for. -/
theorem run_reports (capacity : Nat) (acts : List Act) :
    (run { capacity } acts).reports = (accepted acts).rtake capacity := by
  induction acts using List.reverseRecOn with
  | nil => simp [run, accepted]
  | append_singleton acts act ih =>
      rw [run_append_singleton]
      by_cases isClear : act = .clear
      · rw [isClear, accepted_clear, List.rtake_nil]
        rfl
      · rw [accepted_record isClear]
        cases isReport : act.report? with
        | none => rw [perform_of_refused isClear isReport, ih, Option.toList_none, List.append_nil]
        | some report =>
            have kept : ((run { capacity } acts).keep report).reports =
                ((run { capacity } acts).reports ++ [report]).rtake (run { capacity } acts).capacity :=
              rfl
            rw [perform_of_report? isReport, kept, ih, run_capacity, Option.toList_some,
              rtake_append_rtake]

theorem isJudged_of_accepted (isAccepted : report ∈ accepted acts) : report.IsJudged := by
  obtain ⟨act, -, isReport⟩ := List.mem_filterMap.mp isAccepted
  cases act with
  | clear => cases isReport
  | record fault operation filePath severity =>
      obtain ⟨known, -, rfl⟩ := Option.map_eq_some_iff.mp isReport
      rfl

end

/-!
The summary.
-/

/-- The summary counts the reports: in all, those of each severity, and those after which work
can go on or not.  The numbers of either division add up to the first one. -/
structure Summary.Counts (summary : Summary) (reports : List Report) : Prop where
  total : summary.total = reports.length
  bySeverity : summary.bySeverity = Severity.all.map fun severity =>
    (severity, (reports.filter (·.severity = severity)).length)
  recoverable : summary.recoverable = (reports.filter (·.recoverable)).length
  unrecoverable : summary.unrecoverable = (reports.filter (!·.recoverable)).length
  sumOfSeverities : (summary.bySeverity.map Prod.snd).sum = summary.total
  sumOfBoth : summary.recoverable + summary.unrecoverable = summary.total

/-- Each report has one severity. -/
theorem sum_countP_severity (reports : List Report) :
    (Severity.all.map fun severity => reports.countP (·.severity = severity)).sum =
      reports.length := by
  induction reports with
  | nil => rfl
  | cons report rest ih =>
      simp only [Severity.all, List.map_cons, List.map_nil, List.sum_cons, List.sum_nil] at ih ⊢
      simp only [List.countP_cons, List.length_cons]
      cases report.severity <;> simp <;> omega

theorem counts_summary (ledger : Ledger) : ledger.summary.Counts ledger.reports where
  total := rfl
  bySeverity := by simp only [summary, List.countP_eq_length_filter]
  recoverable := List.countP_eq_length_filter
  unrecoverable := List.countP_eq_length_filter
  sumOfSeverities := by
    have counts := sum_countP_severity ledger.reports
    simpa [summary, Function.comp_def] using counts
  sumOfBoth := by
    have counts := List.length_eq_countP_add_countP (fun report : Report => report.recoverable)
      (l := ledger.reports)
    simpa [summary] using counts.symm

/-- After any run a ledger with room for some reports holds the last ones that were accepted
since it was cleared, in their order, and its summary counts them.  Whatever is recorded next:
a word that is no severity is refused, and the ledger stays as it is; under any severity the
report is added in the same way, and a critical failure is raised again while no other one
is.  Critical failures count among those after which work can not go on. -/
theorem run_keepsLatest (capacity : Nat) (acts : List Act) :
    ∃ start ledger, empty? capacity = .ok start ∧ start.run acts = ledger ∧
      ledger.select none = (accepted acts).rtake capacity ∧
      ledger.summary.Counts (ledger.select none) ∧
      (∀ report ∈ ledger.select none,
        report.IsJudged ∧ (report.severity = .critical → report.recoverable = false)) ∧
      ∀ fault operation filePath severity,
        (Severity.ofLabel? severity = none ↔ severity ∉ ["low", "medium", "high", "critical"]) ∧
        ledger.perform (.record fault operation filePath severity) =
          match Severity.ofLabel? severity with
          | none => (ledger, .error (.unknownSeverity severity))
          | some known =>
            let report := reportOf fault operation filePath known
            ({ ledger with reports := (ledger.select none ++ [report]).rtake capacity },
              if known = .critical then .error fault else .ok (some report)) := by
  refine ⟨{ capacity }, _, ?_, rfl, run_reports capacity acts, counts_summary _, ?_, ?_⟩
  · have notNegative : ¬(capacity : Int) < 0 := by omega
    rw [empty?, if_neg notNegative, Int.toNat_natCast]
  · intro report member
    have within : report ∈ accepted acts := by
      rw [select, run_reports] at member
      exact List.mem_of_mem_drop member
    have isJudged := isJudged_of_accepted within
    exact ⟨isJudged, isJudged.of_critical⟩
  · intro fault operation filePath severity
    refine ⟨Severity.ofLabel?_eq_none_iff, ?_⟩
    rw [perform_record]
    cases Severity.ofLabel? severity with
    | none => rfl
    | some known =>
        have sameRoom := run_capacity { capacity } acts
        simp only [keep, sameRoom]
        rfl

/-- A history with a clearing and with a word that is no severity. -/
def sampleActs : List Act :=
  [.record .nullInPath "scan" none "low", .clear,
    .record (.extraction "boom") "scan" none "fatal",
    .record (.extraction "boom") "scan" none "high",
    .record .nullInPath "scan" (some "/a") "critical",
    .record (.extraction "Parse error near line 3") "extract" none "medium"]

/-- The last two of the three reports behind the clearing.  Work could go on after a failure of
the first one's kind, were it not critical. -/
def sampleReports : List Report :=
  [{ fault := .nullInPath, operation := "scan", severity := .critical, recoverable := false,
     filePath := some "/a" },
    { fault := .extraction "Parse error near line 3", operation := "extract",
      severity := .medium, recoverable := true, filePath := none }]

/-- With room for two reports these are kept, and the critical one counts as unrecoverable. -/
theorem run_keepsLatest_sampleActs :
    ∃ ledger, run { capacity := 2 } sampleActs = ledger ∧
      ledger.select none = sampleReports ∧
      ledger.summary.total = 2 ∧ ledger.summary.unrecoverable = 1 ∧
      ledger.perform (.record .noServer "serve" none "fatal") =
        (ledger, .error (.unknownSeverity "fatal")) ∧
      (ledger.perform (.record .noServer "serve" none "critical")).2 = .error .noServer := by
  obtain ⟨start, ledger, isStart, isRun, isKept, counts, -, records⟩ := run_keepsLatest 2 sampleActs
  obtain rfl : { capacity := 2 } = start := Except.ok.inj isStart
  have latest : (accepted sampleActs).rtake 2 = sampleReports := by decide +kernel
  have kept := isKept.trans latest
  refine ⟨ledger, isRun, kept, ?_, ?_, ?_, ?_⟩
  · rw [counts.total, kept]
    rfl
  · rw [counts.unrecoverable, kept]
    rfl
  · exact (records .noServer "serve" none "fatal").2
  · rw [(records .noServer "serve" none "critical").2]
    rfl

end Ledger

end ComponentAtlas
