/-
Module: ComponentAtlas.Ledger
Purpose: The most recent failures, and which of them work can go on after.
Main exports:
  Report, Ledger, Ledger.empty?, Ledger.record, Ledger.recordAs, Ledger.summary
-/
import ComponentAtlas.Fault
import ComponentAtlas.Journal
import ComponentAtlas.Text.LowerCase
import ComponentAtlas.Text.Search

namespace ComponentAtlas

open ComponentAtlas.Text

/-- Phrases in messages of failures that work can go on after. -/
def recoverablePhrases : List String :=
  ["ENOENT", "no such file", "permission denied", "syntax error", "parse error", "timeout",
    "time out", "timedout", "timed out"]

/-- The text begins with a phrase, where case is ignored. -/
def beginsFolded : (phrase text : List Char) → Bool
  | [], _ => true
  | _ :: _, [] => false
  | c :: phrase, d :: text => sameFolded c d && beginsFolded phrase text

/-- A message that speaks of a failure that work can go on after. -/
def isRecoverableMessage (message : List Char) : Bool :=
  anywhere (fun _ text => recoverablePhrases.any fun phrase => beginsFolded phrase.toList text)
    none message

/-- Work can go on after a failure: never after a critical one, else by its kind or
its message. -/
def isRecoverable (fault : Fault) (severity : Severity) : Bool :=
  severity ≠ .critical && (fault.kind.isRecoverable || isRecoverableMessage fault.text.toList)

/-- A failure that was recorded. -/
structure Report where
  fault : Fault
  operation : String
  severity : Severity
  recoverable : Bool
  filePath : Option String
deriving Repr, DecidableEq

def Report.log (report : Report) : Journal.Record :=
  let location :=
    match report.filePath with
    | some path => if path.isEmpty then "" else " (" ++ path ++ ")"
    | none => ""
  { level := report.severity.level
    logger := "errors"
    message := "[" ++ report.severity.mark ++ "] " ++ report.operation ++ location ++ ": " ++
      report.fault.message }

/-- The failures that are kept, the oldest first. -/
structure Ledger where
  capacity : Nat := 100
  reports : List Report := []
deriving Repr

namespace Ledger

/-- A ledger without reports for a number of them, which must not be negative. -/
def empty? (capacity : Int) : Except Fault Ledger :=
  if capacity < 0 then .error .negativeCapacity else .ok { capacity := capacity.toNat }

/-- The last elements of a list, up to a number. -/
def lastOf {α : Type} (count : Nat) (items : List α) : List α := items.drop (items.length - count)

def reportOf (fault : Fault) (operation : String) (filePath : Option String)
    (severity : Severity) : Report :=
  { fault, operation, severity, recoverable := isRecoverable fault severity, filePath }

/-- Keep a report; beyond the capacity the oldest one is forgotten. -/
def keep (ledger : Ledger) (report : Report) : Ledger :=
  { ledger with reports := lastOf ledger.capacity (ledger.reports ++ [report]) }

/-- What recording a failure leads to. -/
structure Recorded where
  ledger : Ledger
  report : Report
  log : Journal.Record
  /-- The failure goes on, because it is critical. -/
  raised : Option Fault

def record (ledger : Ledger) (fault : Fault) (operation : String) (filePath : Option String)
    (severity : Severity) : Recorded :=
  let report := reportOf fault operation filePath severity
  { ledger := ledger.keep report
    report
    log := report.log
    raised := if severity = .critical && !report.recoverable then some fault else none }

/-- Record a failure under a severity given by its word. -/
def recordAs (ledger : Ledger) (fault : Fault) (operation : String) (filePath : Option String)
    (severity : String) : Except Fault Recorded :=
  match Severity.ofLabel? severity with
  | some known => .ok (ledger.record fault operation filePath known)
  | none => .error (.unknownSeverity severity)

/-- The reports that are kept, or those of one severity. -/
def select (ledger : Ledger) (severity : Option String) : List Report :=
  match severity with
  | none => ledger.reports
  | some label => ledger.reports.filter fun report => report.severity.label = label

def clear (ledger : Ledger) : Ledger := { ledger with reports := [] }

/-- The numbers of reports: all, by severity, and by whether work can go on. -/
structure Summary where
  total : Nat
  bySeverity : List (Severity × Nat)
  recoverable : Nat
  unrecoverable : Nat
deriving Repr, DecidableEq

def summary (ledger : Ledger) : Summary :=
  { total := ledger.reports.length
    bySeverity := Severity.all.map fun severity =>
      (severity, ledger.reports.countP fun report => report.severity = severity)
    recoverable := ledger.reports.countP (·.recoverable)
    unrecoverable := ledger.reports.countP (!·.recoverable) }

def Summary.data (summary : Summary) : Data :=
  .record ([("total", .int summary.total)] ++
    summary.bySeverity.map (fun (severity, count) => (severity.label, .int count)) ++
    [("recoverable", .int summary.recoverable), ("unrecoverable", .int summary.unrecoverable)])

end Ledger

end ComponentAtlas
