/-
Module: ComponentAtlas.Settings.Workspace
Purpose: A project with its settings, and what they say about its paths.
Main exports:
  Workspace, Workspace.openAt, Workspace.update, Workspace.save,
  Workspace.scanRoots, Workspace.relativePath, Workspace.isIncluded,
  Workspace.isComponentFile
-/
import ComponentAtlas.Disk.Change
import ComponentAtlas.Journal
import ComponentAtlas.Path.Filter
import ComponentAtlas.Settings.Check
import ComponentAtlas.Settings.File

namespace ComponentAtlas

open ComponentAtlas.Settings

/-!
A project keeps its settings twice: as they are written, for validation and for
later changes, and as values of the right types, for use.
-/

/-- A project. -/
structure Workspace where
  users : Users
  /-- The directory that relative paths start from. -/
  root : Path
  configPath : Path
  /-- The settings as they are written. -/
  entries : Entries
  settings : Settings
deriving Repr

namespace Workspace

/-- The path of the configuration file: a given one, or the one with the default
name in the root. -/
def configPathIn (machine : Machine) (root : Path) : Option Path → Except Fault Path
  | none => .ok (root.child defaultFileName.toList)
  | some path => filePath machine path

/-- Open the project at a root.  Its settings are those of its configuration file,
over the default ones and under the given ones. -/
def openAt (machine : Machine) (root : Path) (configPath : Option Path)
    (overrides : Entries) : Except Fault Workspace := do
  let root ← machine.disk.realPath (← machine.absolute root)
  let configPath ← configPathIn machine root configPath
  let entries ← overlay (← entriesOverDefault machine configPath) overrides
  return { users := machine.users, root, configPath, entries, settings := ← ofEntries entries }

/-- The component and exclude patterns of the project. -/
def filter (workspace : Workspace) : Path.Filter :=
  { component := workspace.settings.componentPatterns.map String.toList
    exclude := workspace.settings.excludePatterns.map String.toList }

/-- Lay written settings over those of the project.  When these cannot be used, the
written ones have changed all the same, and those in use stay as they are. -/
def update (workspace : Workspace) (updates : Entries) : Workspace × Option Fault :=
  match overlay workspace.entries updates with
  | .error fault => (workspace, some fault)
  | .ok entries =>
    match ofEntries entries with
    | .error fault => ({ workspace with entries }, some fault)
    | .ok settings => ({ workspace with entries, settings }, none)

def check (workspace : Workspace) (disk : Disk) : Except Fault CheckResult :=
  checkEntries { disk, users := workspace.users, root := workspace.root } workspace.entries

/-- Write the settings in use to the configuration file.  Of their numbers only the size
of the cache may have too many digits to be written. -/
def save (workspace : Workspace) (disk : Disk) (now : Timestamp) :
    Except Fault (Disk × Journal.Record) := do
  let next ← disk.makeDirectories workspace.configPath.parent
  if Decimal.tenTo Decimal.maxIntDigits ≤ workspace.settings.cacheMaxSize.natAbs then
    throw .numberUnwritable
  let next ← next.store workspace.configPath
    (Text.Utf8.encode (fileText workspace.settings).toList) now
  return (next, { level := .info, logger := "config"
                  message := "Saved configuration to " ++ workspace.configPath.text })

def enabledFrameworks (workspace : Workspace) : List FrameworkSettings :=
  workspace.settings.frameworks.filter (·.enabled)

/-- The framework with a name, when it is switched on. -/
def framework? (workspace : Workspace) (name : String) : Option FrameworkSettings :=
  workspace.enabledFrameworks.find? fun framework => framework.name = name

/-- A path seen from the root, without two dots. -/
def absolute (workspace : Workspace) (path : Path) : Except Fault Path := do
  return (workspace.root.join (← path.expandUser workspace.users)).normal

def scanRoots (workspace : Workspace) : Except Fault (List Path) :=
  workspace.settings.scanPaths.mapM fun path => workspace.absolute (Path.ofText path)

def relativePath (workspace : Workspace) (path : Path) : Except Fault (List Char) := do
  return (← workspace.absolute path).relative workspace.root

/-- An absolute path lies in one of the scanned directories and follows no exclude
pattern. -/
def includes (workspace : Workspace) (roots : List Path) (path : Path) : Bool :=
  roots.any path.isWithin &&
    !workspace.filter.excludes (path.relative workspace.root) path.name

/-- An absolute path has the ending of a framework that is switched on. -/
def hasKnownEnding (workspace : Workspace) (path : Path) : Bool :=
  workspace.enabledFrameworks.any fun framework =>
    framework.fileExtensions.contains (String.ofList path.extension)

def holdsComponent (workspace : Workspace) (roots : List Path) (path : Path) : Bool :=
  workspace.includes roots path && workspace.hasKnownEnding path &&
    workspace.filter.matches (path.relative workspace.root) path.name

/-- The path lies in one of the scanned directories and follows no exclude
pattern. -/
def isIncluded (workspace : Workspace) (path : Path) : Except Fault Bool := do
  let path ← workspace.absolute path
  return workspace.includes (← workspace.scanRoots) path

def isComponentFile (workspace : Workspace) (path : Path) : Except Fault Bool := do
  let path ← workspace.absolute path
  return workspace.holdsComponent (← workspace.scanRoots) path

end Workspace

end ComponentAtlas
