/-
Module: ComponentAtlas.Catalog.Basic
Purpose: The catalog of the components of a project: its state and its opening.
Main exports:
  Moment, Catalog, Catalog.openOn, Catalog.observe
-/
import ComponentAtlas.Cache.Expiring
import ComponentAtlas.Cache.Records
import ComponentAtlas.Design.Snapshot
import ComponentAtlas.Discovery.Analysis
import ComponentAtlas.Discovery.Scan

namespace ComponentAtlas

/-- The machine at one time: its files, the seconds on a clock that never goes back,
and the date.  Each cache goes by a clock that it was made with, so that a catalog that
works on a given cache goes by the clock of that one. -/
structure Moment where
  disk : Disk
  clock : Float
  now : Timestamp
  /-- The clock of the cache of components that is worked on. -/
  cacheClock : Float := clock
  /-- The clock of the cache of design systems that is worked on. -/
  designClock : Float := clock

/-- How the settings of a project want components to be cached. -/
def Workspace.cacheMode (workspace : Workspace) : Cache.Mode :=
  { enabled := workspace.settings.cacheEnabled, maxSize := workspace.settings.cacheMaxSize }

/-- The components of a project, with all that is kept between queries. -/
structure Catalog where
  workspace : Workspace
  analyzer : Analyzer
  detector : Category.Detector Float
  cache : Cache.Records Float
  /-- The cache of components is the one that was given, not one like it. -/
  cacheIsGiven : Bool := false
  /-- The mode of a cache that does not follow the settings of the project. -/
  ownMode : Option Cache.Mode := none
  designs : Cache.Expiring Float Design.Snapshot
  /-- The cache of design systems is the one that was given, not one like it. -/
  designsAreGiven : Bool := false
  ledger : Ledger := {}
  /-- The components that were found last, each file once. -/
  components : List Component := []
  lastRefresh : Option Float := none
  journal : List Journal.Record := []

namespace Catalog

/-- How components are cached. -/
def cacheMode (catalog : Catalog) : Cache.Mode :=
  catalog.ownMode.getD catalog.workspace.cacheMode

def record (level : Level) (message : String) : Journal.Record :=
  { level, logger := "orchestrator", message }

/-- Add an event to the journal and, if it is an incident, to the ledger. -/
def observe (catalog : Catalog) (events : List Event) : Catalog :=
  { catalog with
    ledger := catalog.ledger.takeAll events
    journal := catalog.journal ++ events.flatMap Event.records }

/-- Caches that a catalog may start from. -/
structure Stock where
  cache : Option (Cache.Records Float) := none
  /-- The mode of the given cache, when it does not follow the settings of the
  project. -/
  ownMode : Option Cache.Mode := none
  designs : Option (Cache.Expiring Float Design.Snapshot) := none

/-- The given cache of components, if there is something to be seen in it. -/
def Stock.filledCache? (stock : Stock) (mode : Cache.Mode) : Option (Cache.Records Float) :=
  stock.cache.filter fun cache => cache.size (stock.ownMode.getD mode) ≠ 0

/-- The cache of components to start from: a given one that holds something, else a
fresh one. -/
def Stock.startCache (stock : Stock) (mode : Cache.Mode) : Cache.Records Float :=
  (stock.filledCache? mode).getD {}

/-- The mode of the cache to start from; a fresh one follows the settings. -/
def Stock.startMode (stock : Stock) (mode : Cache.Mode) : Option Cache.Mode :=
  (stock.filledCache? mode).bind fun _ => stock.ownMode

/-- The number of design systems that a fresh cache holds. -/
def designCapacity : Nat := 100

/-- The given cache of design systems, if it holds something. -/
def Stock.filledDesigns? (stock : Stock) : Option (Cache.Expiring Float Design.Snapshot) :=
  stock.designs.filter fun designs => !designs.leases.isEmpty

/-- The cache of design systems to start from: a given one that holds something, else
a fresh one. -/
def Stock.startDesigns (stock : Stock) (settings : Settings) :
    Cache.Expiring Float Design.Snapshot :=
  stock.filledDesigns?.getD
    { maxSize := designCapacity, lifetime := settings.designSystemTtl.toFloat }

/-- The catalog of a project whose settings were found to be in order. -/
def start (workspace : Workspace) (analyzer : Analyzer) (detector : Category.Detector Float)
    (stock : Stock) (journal : List Journal.Record) : Catalog :=
  { workspace, analyzer, detector, journal
    cache := stock.startCache workspace.cacheMode
    cacheIsGiven := (stock.filledCache? workspace.cacheMode).isSome
    ownMode := stock.startMode workspace.cacheMode
    designs := stock.startDesigns workspace.settings
    designsAreGiven := stock.filledDesigns?.isSome }

/-- Open the catalog of a project.  The warnings about its settings are logged, and
errors in them forbid to open it. -/
def openOn (workspace : Workspace) (analyzer : Analyzer) (detector : Category.Detector Float)
    (stock : Stock) (disk : Disk) : List Journal.Record × Except Fault Catalog :=
  match workspace.check disk with
  | .error fault => ([], .error fault)
  | .ok result =>
    let journal := result.warnings.map fun warning =>
      record .warning ("Config warning: " ++ warning)
    if result.isValid then (journal, .ok (start workspace analyzer detector stock journal))
    else (journal, .error (.invalidSettings result.errors))

end Catalog

end ComponentAtlas
