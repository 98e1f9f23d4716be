/-
Module: ComponentAtlas.Catalog.Refresh
Purpose: Reading the components of a project again, as far as their files have
  changed.
Main exports:
  Pass, Pass.load, Catalog.refresh, Catalog.current
-/
import ComponentAtlas.Catalog.Basic

namespace ComponentAtlas.Catalog

/-!
A refresh takes each scanned file in turn.  A file whose cached component is as new
as the file is not analyzed again.  A file that fails leaves an incident and no
component.  Components of files that were not scanned leave the cache.
-/

/-- A refresh under way. -/
structure Pass where
  cache : Cache.Records Float
  events : List Event := []
  components : List Component := []
  /-- Number of components that came from the cache. -/
  reused : Nat := 0

/-- Put a component in the place of the one of its file, or at the end. -/
def placeComponent (component : Component) : List Component → List Component
  | [] => [component]
  | other :: rest =>
    if other.filePath = component.filePath then component :: rest
    else other :: placeComponent component rest

/-- The event of a file of which the machine tells no time. -/
def statFailed (path : Path) (fault : Fault) : Event :=
  .incident
    { fault, operation := "stat_component", filePath := path.text, severity := .low
      note := record .warning ("Failed to stat " ++ path.text ++ ": " ++ fault.text) }

/-- The event of a file whose analysis failed as a whole. -/
def analysisFailed (path : Path) (fault : Fault) : Event :=
  .incident
    { fault, operation := "analyze_component", filePath := path.text, severity := .medium
      note := record .warning ("Failed to analyze " ++ path.text ++ ": " ++ fault.text) }

namespace Pass

def observe (pass : Pass) (events : List Event) : Pass :=
  { pass with events := pass.events ++ events }

/-- Keep the component of an analysis, here and in the cache. -/
def keep (pass : Pass) (mode : Cache.Mode) (clock : Float) (component : Component) : Pass :=
  let (cache, log) := pass.cache.put mode clock component
  { pass with
    cache
    events := pass.events ++ log.map Event.note
    components := placeComponent component pass.components }

def analyze (pass : Pass) (analyzer : Analyzer) (mode : Cache.Mode) (moment : Moment)
    (path : Path) : Pass :=
  match analyzer.analyze moment.disk path with
  | .error fault => pass.observe [analysisFailed path fault]
  | .ok analysis =>
    match analysis.component with
    | some component => (pass.observe analysis.events).keep mode moment.cacheClock component
    | none => pass.observe analysis.events

/-- Take the component of a file from the cache. -/
def reuse? (pass : Pass) (mode : Cache.Mode) (clock : Float) (path : Path) : Option Pass :=
  match pass.cache.get mode clock path.text with
  | (cache, some component) =>
    some { pass with
      cache
      components := placeComponent component pass.components
      reused := pass.reused + 1 }
  | (_, none) => none

/-- The event of a file whose time cannot be had.  A time in a year without dates is no
failure of the machine. -/
def untimed (path : Path) (fault : Fault) : Event :=
  if fault.kind.isDisk then statFailed path fault else analysisFailed path fault

/-- Load the component of a file: from the cache, if the component there is as new as
the file. -/
def load (analyzer : Analyzer) (mode : Cache.Mode) (moment : Moment) (pass : Pass)
    (path : Path) : Pass :=
  match moment.disk.modified path with
  | .error fault => pass.observe [untimed path fault]
  | .ok modified =>
    match pass.cache.isFresh? mode path.text modified with
    | none => pass.observe [analysisFailed path .incomparableTimes]
    | some false => pass.analyze analyzer mode moment path
    | some true =>
      (pass.reuse? mode moment.cacheClock path).getD (pass.analyze analyzer mode moment path)

/-- The files in the cache that were not scanned. -/
def stale (pass : Pass) (mode : Cache.Mode) (scanned : List String) : List String :=
  (pass.cache.paths mode).filter fun path => path ∉ scanned

/-- The cache without the components of files that were not scanned. -/
def freshCache (pass : Pass) (mode : Cache.Mode) (scanned : List String) :
    Cache.Records Float :=
  (pass.stale mode scanned).foldl (fun cache path => cache.invalidate mode path) pass.cache

end Pass

def pass (catalog : Catalog) (moment : Moment) (paths : List Path) : Pass :=
  paths.foldl (Pass.load catalog.analyzer catalog.cacheMode moment)
    { cache := catalog.cache }

/-- The catalog after the scanned files were loaded. -/
def refreshFrom (catalog : Catalog) (moment : Moment) (scan : Scan) : Catalog :=
  let mode := catalog.cacheMode
  let pass := catalog.pass moment scan.paths
  let started := record .info
    ("Refreshing " ++ toString scan.paths.length ++ " component files")
  let done := record .debug
    ("Refresh complete: " ++ toString pass.components.length ++ " components (" ++
      toString pass.reused ++ " from cache)")
  let next := catalog.observe (scan.events ++ [.note started] ++ pass.events ++ [.note done])
  { next with
    cache := pass.freshCache mode (scan.paths.map Path.text)
    designs := catalog.designs.clear
    components := pass.components
    lastRefresh := some moment.clock }

/-- Read the components of the project again.  When the scan fails, what happened on the
way is still told. -/
def refresh (catalog : Catalog) (moment : Moment) : Catalog × Except Fault (List Component) :=
  match catalog.workspace.survey moment.disk with
  | (events, .error fault) => (catalog.observe events, .error fault)
  | (_, .ok scan) =>
    let next := catalog.refreshFrom moment scan
    (next, .ok next.components)

/-- The components have to be read again: they never were, or the settings ask for it
after a time that has passed. -/
def isDue (catalog : Catalog) (clock : Float) : Bool :=
  match catalog.lastRefresh with
  | none => true
  | some last =>
    catalog.workspace.settings.autoRefresh &&
      catalog.workspace.settings.refreshInterval.toFloat ≤ clock - last

/-- The components of the project, read again when that is due. -/
def current (catalog : Catalog) (moment : Moment) : Catalog × Except Fault (List Component) :=
  if catalog.isDue moment.clock then catalog.refresh moment
  else (catalog, .ok catalog.components)

end ComponentAtlas.Catalog
