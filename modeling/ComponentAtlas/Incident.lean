/-
Module: ComponentAtlas.Incident
Purpose: Failures that work goes on after, and what a run leaves behind of them.
Main exports:
  Incident, Event, Event.records, Ledger.take, Ledger.takeAll
-/
import ComponentAtlas.Ledger

namespace ComponentAtlas

/-!
Work on many files does not stop at a failure.  A failure leaves a log record in
the part of the program that met it, and a report.
-/

/-- A failure at a file that work goes on after. -/
structure Incident where
  fault : Fault
  operation : String
  filePath : String
  severity : Severity
  /-- What the part of the program that met it logs. -/
  note : Journal.Record
deriving Repr, DecidableEq

/-- What happens in a run: a log record, or an incident. -/
inductive Event where
  | note (record : Journal.Record)
  | incident (met : Incident)
deriving Repr, DecidableEq

def Incident.report (incident : Incident) : Report :=
  Ledger.reportOf incident.fault incident.operation (some incident.filePath) incident.severity

namespace Event

/-- The log records of an event when failures are reported. -/
def records : Event → List Journal.Record
  | .note record => [record]
  | .incident met => [met.note, met.report.log]

/-- The log records of an event when failures are not reported. -/
def notes : Event → List Journal.Record
  | .note record => [record]
  | .incident met => [met.note]

end Event

namespace Ledger

/-- Keep the report of an event, if it has one. -/
def take (ledger : Ledger) : Event → Ledger
  | .note _ => ledger
  | .incident met => ledger.keep met.report

def takeAll (ledger : Ledger) (events : List Event) : Ledger := events.foldl take ledger

end Ledger

end ComponentAtlas
