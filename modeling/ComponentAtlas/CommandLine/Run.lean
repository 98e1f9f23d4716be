/-
Module: ComponentAtlas.CommandLine.Run
Purpose: What the program does for its arguments: its output, its log, and its exit
  code.
Main exports:
  Outcome, perform, run
-/
import ComponentAtlas.Catalog.Query
import ComponentAtlas.CommandLine.Command
import ComponentAtlas.Data.Json
import ComponentAtlas.Disk.Change
import ComponentAtlas.Disk.Machine

namespace ComponentAtlas.CommandLine

/-- What a run of the program shows. -/
structure Outcome where
  exit : Nat
  output : String
  log : String
deriving Repr, DecidableEq

/-- What a command leads to: the log, and an exit code with a document, or a
failure. -/
abbrev Performed := List Journal.Record × Except Fault (Nat × Data)

def reply {α : Type} (answer : Answer α) (write : α → Data) : Performed :=
  (answer.1.journal, answer.2.map fun value => (0, write value))

def listed {α : Type} (write : α → Data) (items : List α) : Data := .list (items.map write)

/-- The paths of the components that would be analyzed. -/
def scanned (catalog : Catalog) (moment : Moment) : Answer (List String) :=
  let (events, found) := catalog.workspace.survey moment.disk
  (catalog.observe events, found.map fun scan => scan.paths.map Path.text)

/-- Perform a command that needs the catalog. -/
def query (catalog : Catalog) (moment : Moment) : Command → Performed
  | .scan => reply (scanned catalog moment) .texts
  | .list category framework =>
    reply (catalog.summaries moment category framework) (listed Summary.data)
  | .details name => reply (catalog.details moment name) Component.data
  | .similar name threshold limit =>
    reply (catalog.similar moment name threshold limit) (listed Match.data)
  | .design category => reply (catalog.design moment category) Design.Snapshot.data
  | .categories => reply (catalog.categories moment) (listed CategoryInfo.data)
  | .validate => (catalog.journal, .ok (0, .null))
  | .serve _ _ => (catalog.journal, .error .noServer)

/-- The findings about settings, and whether they may be used. -/
def checkDocument (result : Settings.CheckResult) : Nat × Data :=
  (if result.isValid then 0 else 1,
    .record [("valid", .bool result.isValid), ("errors", .texts result.errors),
      ("warnings", .texts result.warnings)])

def performOn (workspace : Workspace) (moment : Moment) (command : Command) : Performed :=
  match command with
  | .validate => ([], (workspace.check moment.disk).map checkDocument)
  | command =>
    let detector := Category.Detector.default
    match Catalog.openOn workspace (.standard Props.bySource (some detector)) detector {}
        moment.disk with
    | (_, .ok catalog) => query catalog moment command
    | (journal, .error fault) => (journal, .error fault)

def pathOf (text : Option String) : Option Path := text.map Path.ofText

def perform (machine : Machine) (moment : Moment) (invocation : Invocation) : Performed :=
  match Workspace.openAt machine (Path.ofText invocation.root) (pathOf invocation.config) [] with
  | .ok workspace => performOn workspace moment invocation.command
  | .error fault => ([], .error fault)

/-- The words for a failure that ends the program; `none` for one that nothing
foresees. -/
def farewell? (command : Command) (fault : Fault) : Option String :=
  let opening := Journal.program ++ ": " ++ fault.text ++ "\n"
  if fault.kind = .configuration then
    some (opening ++ String.join (fault.details.map fun error => "  - " ++ error ++ "\n"))
  else if fault.kind = .missingComponent then some opening
  else if fault.kind.isRuntime then
    some (Journal.program ++ " " ++ command.word ++ " failed: " ++ fault.text ++
      "\nRun with --verbose for more details.\n")
  else none

/-- The lowest level of records that are logged. -/
def Invocation.level (invocation : Invocation) : Level :=
  Journal.chosenLevel invocation.verbose (if invocation.quiet then some .warning else none)

/-- The outcome of what a command led to.  Failures that nothing foresees are passed
on. -/
def outcomeOf (invocation : Invocation) : Performed → Except Fault Outcome
  | (journal, .ok (exit, document)) =>
    .ok { exit, output := Json.writeIndented document ++ "\n"
          log := Journal.shown invocation.level journal }
  | (journal, .error fault) =>
    match farewell? invocation.command fault with
    | some words =>
      .ok { exit := 1, output := "", log := Journal.shown invocation.level journal ++ words }
    | none => .error fault

/-- The disk with the file that log records are also written to. -/
def withLogFile (machine : Machine) (now : Timestamp) : Option String → Except Fault Disk
  | none | some "" => .ok machine.disk
  | some text => machine.disk.openLog (machine.directory.join (Path.ofText text)).normal now

def usage : String :=
  "usage: " ++ Journal.program ++ " [-h] [-v] [-q] [--log-file LOG_FILE] [--config CONFIG] " ++
    "[--root ROOT] \x7b" ++ ",".intercalate (commandSpecs.map (·.name)) ++ "\x7d ...\n"

def run (machine : Machine) (clock : Float) (now : Timestamp) (args : List String) :
    Except Fault Outcome :=
  match Invocation.ofArguments args with
  | .error .help => .ok { exit := 0, output := usage, log := "" }
  | .error .usage => .ok { exit := 2, output := "", log := usage }
  | .ok invocation => do
    let disk ← withLogFile machine now invocation.logFile
    outcomeOf invocation (perform { machine with disk } { disk, clock, now } invocation)

end ComponentAtlas.CommandLine
