/-
Module: ComponentAtlas.Discovery.Scan
Purpose: The component files of a project.
Main exports:
  Scan, Workspace.survey, Workspace.scan
-/
import ComponentAtlas.Disk.Walk
import ComponentAtlas.Incident
import ComponentAtlas.Settings.Workspace

namespace ComponentAtlas

/-- What a scan finds: the paths of components in the order in which they are met,
and what happened on the way. -/
structure Scan where
  paths : List Path
  events : List Event
deriving Repr

namespace Scan

def noteAt (level : Level) (message : String) : Event :=
  .note { level, logger := "scanner", message }

/-- The event of a directory whose names cannot be listed. -/
def refusal (path : Path) (problem : DiskProblem) : Event :=
  let fault := Fault.disk problem path.text
  .incident
    { fault, operation := "scan_directory", filePath := path.text, severity := .low
      note := { level := .warning, logger := "scanner"
                message := "Failed to scan directory " ++ path.text ++ ": " ++ fault.text } }

/-- The event of a sighting: files leave none. -/
def eventOf? : Sighting → Option Event
  | .file _ => none
  | .refused path problem => some (refusal path problem)

def fileOf? : Sighting → Option Path
  | .file path => some path
  | .refused _ _ => none

/-- What is met below one of the scanned directories, if it exists. -/
def sightings (workspace : Workspace) (disk : Disk) (roots : List Path) (root : Path) :
    List Sighting :=
  if disk.leadsToDirectory root then disk.walk (workspace.includes roots) root else []

/-- What happens at one of the scanned directories. -/
def eventsAt (workspace : Workspace) (disk : Disk) (roots : List Path) (root : Path) :
    List Event :=
  if disk.leadsToDirectory root then (sightings workspace disk roots root).filterMap eventOf?
  else [noteAt .debug ("Skipping missing scan root " ++ root.text)]

def candidates (workspace : Workspace) (disk : Disk) (roots : List Path) : List Path :=
  roots.flatMap fun root => (sightings workspace disk roots root).filterMap fileOf?

def ofRoots (workspace : Workspace) (disk : Disk) (roots : List Path) : Scan :=
  let candidates := candidates workspace disk roots
  let paths := candidates.filter (workspace.holdsComponent roots)
  { paths
    events := roots.flatMap (eventsAt workspace disk roots) ++
      [noteAt .debug ("Scanner found " ++ toString paths.length ++ " component files among " ++
        toString candidates.length ++ " candidates")] }

/-- The scanned directories up to the first one of which the machine does not tell whether
it is there, and the failure at that one. -/
def reached (disk : Disk) : List Path → List Path × Option Fault
  | [] => ([], none)
  | root :: rest =>
    match disk.isDirectory root with
    | .ok _ => (root :: (reached disk rest).1, (reached disk rest).2)
    | .error fault => ([], some fault)

end Scan

namespace Workspace

/-- Scan the directories of a project for components: what happens, and what is found, if
the machine tells of each of the directories whether it is there. -/
def survey (workspace : Workspace) (disk : Disk) : List Event × Except Fault Scan :=
  match workspace.scanRoots with
  | .error fault => ([], .error fault)
  | .ok roots =>
    match Scan.reached disk roots with
    | (told, some fault) => (told.flatMap (Scan.eventsAt workspace disk roots), .error fault)
    | (_, none) =>
      let scan := Scan.ofRoots workspace disk roots
      (scan.events, .ok scan)

/-- What a scan of the project finds. -/
def scan (workspace : Workspace) (disk : Disk) : Except Fault Scan := (workspace.survey disk).2

end Workspace

end ComponentAtlas
