/-
Module: ComponentAtlas.Proofs.Catalog.Run
Purpose: Runs of a catalog, and what every step of a run keeps.
Main exports:
  Catalog.Step, Catalog.perform, Catalog.run, perform_preserves, run_preserves,
  reuse?_of_isFresh, refresh_cache, Catalog.WorksOn, run_worksOn
-/
import ComponentAtlas.Catalog.Query
import ComponentAtlas.Proofs.Cache.Expiring
import ComponentAtlas.Proofs.Cache.Records
import ComponentAtlas.Proofs.Discovery.Versions

namespace ComponentAtlas

namespace Catalog

/-- What can be done with a catalog: it is refreshed, asked, told to forget cached
components, or given other settings. -/
inductive Step where
  | refresh
  | components
  | summaries (category framework : Option String)
  | details (name : String)
  | similar (name : String) (threshold : Float) (limit : Option Int)
  | describe (description : String) (props : List String)
  | design (category : Option String)
  | categories
  | suggest (name : String)
  | invalidate (path : String)
  | invalidateAll
  | configure (updates : Entries)

/-- The step gives no settings but those of the cache of components. -/
def Step.IsCacheOnly : Step → Prop
  | .configure updates => Workspace.OnlyCache updates
  | _ => True

instance : DecidablePred Step.IsCacheOnly := fun step => by
  cases step <;> unfold Step.IsCacheOnly <;> infer_instance

/-- The catalog after a step. -/
def perform (catalog : Catalog) (moment : Moment) : Step → Catalog
  | .refresh => (catalog.refresh moment).1
  | .components => (catalog.current moment).1
  | .summaries category framework => (catalog.summaries moment category framework).1
  | .details name => (catalog.details moment name).1
  | .similar name threshold limit => (catalog.similar moment name threshold limit).1
  | .describe description props => (catalog.describe moment description props).1
  | .design category => (catalog.design moment category).1
  | .categories => (catalog.categories moment).1
  | .suggest name => (catalog.suggest moment name).1
  | .invalidate path =>
    { catalog with cache := catalog.cache.invalidate catalog.cacheMode path }
  | .invalidateAll => { catalog with cache := catalog.cache.invalidateAll catalog.cacheMode }
  | .configure updates => (catalog.updateSettings updates).1

/-- The catalog after steps that are taken at one moment after the other. -/
def run (catalog : Catalog) (steps : List (Moment × Step)) : Catalog :=
  steps.foldl (fun catalog step => catalog.perform step.1 step.2) catalog

/-!
A question refreshes the catalog at most once, and then notes events or takes a design
system.  What these few acts keep, every step keeps, and so does every run.
-/

section Preserves

variable {P : Catalog → Prop} {moment : Moment} {catalog : Catalog}

theorem current_preserves (refreshes : P catalog → P (catalog.refresh moment).1)
    (holds : P catalog) : P (catalog.current moment).1 := by
  unfold current
  split
  · exact refreshes holds
  · exact holds

theorem ask_preserves {α : Type} {answer : List Component → Except Fault α}
    (refreshes : ∀ catalog, P catalog → P (catalog.refresh moment).1)
    (holds : P catalog) : P (catalog.ask moment answer).1 :=
  current_preserves (refreshes catalog) holds

theorem andThen_preserves {α β : Type} {first : Answer α} {next : Catalog → α → Answer β}
    (holds : P first.1)
    (goesOn : ∀ catalog value, P catalog → P (next catalog value).1) :
    P (andThen first next).1 := by
  unfold andThen
  split
  · exact goesOn _ _ holds
  · exact holds

theorem details_preserves
    (refreshes : ∀ catalog, P catalog → P (catalog.refresh moment).1)
    (name : String) (holds : P catalog) : P (catalog.details moment name).1 := by
  unfold details
  split
  · exact holds
  · exact ask_preserves refreshes holds

theorem describe_preserves
    (refreshes : ∀ catalog, P catalog → P (catalog.refresh moment).1)
    (description : String) (props : List String) (holds : P catalog) :
    P (catalog.describe moment description props).1 := by
  unfold describe
  split
  · exact holds
  · exact ask_preserves refreshes holds

/-- What the acts of a step keep, the step keeps. -/
theorem perform_preserves (step : Step)
    (refreshes : ∀ catalog, P catalog → P (catalog.refresh moment).1)
    (observes : ∀ catalog events, P catalog → P (catalog.observe events))
    (designs : ∀ catalog category components, step = .design category → P catalog →
      P (catalog.designOf moment category components).1)
    (forgets : ∀ catalog path, P catalog →
      P { catalog with cache := catalog.cache.invalidate catalog.cacheMode path })
    (forgetsAll : ∀ catalog, P catalog →
      P { catalog with cache := catalog.cache.invalidateAll catalog.cacheMode })
    (configures : ∀ catalog updates, step = .configure updates → P catalog →
      P (catalog.updateSettings updates).1)
    (holds : P catalog) : P (catalog.perform moment step) := by
  cases step with
  | refresh => exact refreshes catalog holds
  | components => exact current_preserves (refreshes catalog) holds
  | summaries category framework => exact ask_preserves refreshes holds
  | details name => exact details_preserves refreshes name holds
  | similar name threshold limit =>
      exact andThen_preserves (details_preserves refreshes name holds) fun _ _ found =>
        ask_preserves refreshes found
  | describe description props => exact describe_preserves refreshes description props holds
  | design category =>
      exact andThen_preserves (current_preserves (refreshes catalog) holds)
        fun next components found => designs next category components rfl found
  | categories => exact ask_preserves refreshes holds
  | suggest name =>
      refine andThen_preserves (details_preserves refreshes name holds)
        fun next component found => ?_
      unfold suggestFor
      split
      · exact found
      · split
        · exact observes next _ found
        · exact found
  | invalidate path => exact forgets catalog path holds
  | invalidateAll => exact forgetsAll catalog holds
  | configure updates => exact configures catalog updates rfl holds

/-- What every step of a run keeps, the run keeps. -/
theorem run_preserves {steps : List (Moment × Step)}
    (each : ∀ catalog, ∀ step ∈ steps, P catalog →
      P (catalog.perform step.1 step.2))
    (holds : P catalog) : P (catalog.run steps) := by
  induction steps generalizing catalog with
  | nil => exact holds
  | cons step rest ih =>
      exact ih (fun other next member => each other next (List.mem_cons_of_mem _ member))
        (each catalog step (by simp) holds)

end Preserves

/-!
A pass works on the cache of components by the operations of the cache, and puts there
only what the analysis of a scanned file finds.
-/

namespace Pass

variable {analyzer : Analyzer} {mode : Cache.Mode} {moment : Moment} {pass : Pass} {path : Path}

/-- A file whose cached component is as new as the file is not analyzed again. -/
theorem reuse?_of_isFresh {modified : Timestamp}
    (fresh : pass.cache.isFresh? mode path.text modified = some true) (clock : Float) :
    ∃ slot ∈ pass.cache.slots, slot.path = path.text ∧
      slot.component.lastModified.atLeast? modified = some true ∧
      pass.reuse? mode clock path =
        some { pass with
          cache := (pass.cache.get mode clock path.text).1
          components := placeComponent slot.component pass.components
          reused := pass.reused + 1 } := by
  unfold Cache.Records.isFresh? at fresh
  split at fresh
  · rename_i enabled
    split at fresh
    · rename_i slot found
      obtain ⟨member, samePath⟩ := Cache.Records.find?_spec found
      refine ⟨slot, member, samePath, fresh, ?_⟩
      have read := Cache.Records.get_of_find? enabled clock found
      unfold reuse?
      split
      · rename_i cache component isRead
        rw [isRead] at read
        cases read
        rw [isRead]
      · rename_i cache isRead
        rw [isRead] at read
        cases read
    · cases fresh
  · cases fresh

theorem analyze_cache (pass : Pass) :
    pass.cache.Becomes (fun component => analyzer.component? moment.disk path = some component)
      (pass.analyze analyzer mode moment path).cache := by
  unfold analyze
  split
  · exact .unchanged
  · rename_i analysis analyzed
    split
    · rename_i component isComponent
      refine .put .unchanged mode _ ?_
      rw [Analyzer.component?, analyzed]
      exact isComponent
    · exact .unchanged

theorem load_of_outdated {modified : Timestamp}
    (isTime : moment.disk.modified path = .ok modified)
    (outdated : pass.cache.isFresh? mode path.text modified = some false) :
    load analyzer mode moment pass path = pass.analyze analyzer mode moment path := by
  rw [load, isTime]
  dsimp only
  rw [outdated]

theorem load_of_fresh {modified : Timestamp} {next : Pass}
    (isTime : moment.disk.modified path = .ok modified)
    (fresh : pass.cache.isFresh? mode path.text modified = some true)
    (reused : pass.reuse? mode moment.cacheClock path = some next) :
    load analyzer mode moment pass path = next := by
  rw [load, isTime]
  dsimp only
  rw [fresh]
  dsimp only
  rw [reused]
  rfl

theorem load_cache (pass : Pass) :
    pass.cache.Becomes (fun component => analyzer.component? moment.disk path = some component)
      (load analyzer mode moment pass path).cache := by
  unfold load
  split
  · exact .unchanged
  · split
    · exact .unchanged
    · exact analyze_cache pass
    · rename_i fresh
      obtain ⟨slot, _, _, _, reused⟩ := reuse?_of_isFresh fresh moment.cacheClock
      rw [reused]
      exact .get .unchanged mode _ _

theorem freshCache_cache {kind : Component → Prop} (pass : Pass) (scanned : List String) :
    pass.cache.Becomes kind (pass.freshCache mode scanned) := by
  unfold freshCache
  suffices forgotten : ∀ (files : List String) (cache : Cache.Records Float),
      pass.cache.Becomes kind cache → pass.cache.Becomes kind
        (files.foldl (fun cache path => cache.invalidate mode path) cache) from
    forgotten _ _ .unchanged
  intro files
  induction files with
  | nil => exact fun _ becomes => becomes
  | cons file rest ih => exact fun cache becomes => ih _ (becomes.invalidate mode file)

end Pass

theorem pass_cache (catalog : Catalog) (moment : Moment) (paths : List Path) :
    catalog.cache.Becomes
      (fun component => ∃ path ∈ paths, catalog.analyzer.component? moment.disk path = some component)
      (catalog.pass moment paths).cache := by
  suffices loaded : ∀ (rest : List Path) (start : Pass), rest ⊆ paths →
      start.cache.Becomes
        (fun component => ∃ path ∈ paths,
          catalog.analyzer.component? moment.disk path = some component)
        (rest.foldl (Pass.load catalog.analyzer catalog.cacheMode moment) start).cache from
    loaded paths { cache := catalog.cache } (List.Subset.refl _)
  intro rest
  induction rest with
  | nil => exact fun _ _ => .unchanged
  | cons path rest ih =>
      intro start isSubset
      obtain ⟨member, restSubset⟩ := List.cons_subset.mp isSubset
      refine ((Pass.load_cache start).mono ?_).trans (ih _ restSubset)
      exact fun component finds => ⟨path, member, finds⟩

/-- A refresh loads what the scan found, or notes what happened in a scan that failed. -/
theorem refresh_cases (catalog : Catalog) (moment : Moment) :
    (∃ scan, catalog.workspace.scan moment.disk = .ok scan ∧
      catalog.refresh moment =
        (catalog.refreshFrom moment scan, .ok (catalog.refreshFrom moment scan).components)) ∨
    ∃ fault events, catalog.workspace.scan moment.disk = .error fault ∧
      catalog.refresh moment = (catalog.observe events, .error fault) := by
  cases scanned : catalog.workspace.scan moment.disk with
  | ok scan =>
      refine .inl ⟨scan, rfl, ?_⟩
      rw [refresh, Workspace.survey_of_scan scanned]
  | error fault =>
      refine .inr ⟨fault, (catalog.workspace.survey moment.disk).1, rfl, ?_⟩
      rw [refresh, Workspace.survey_of_failed_scan scanned]

theorem refresh_of_scan {catalog : Catalog} {moment : Moment} {scan : Scan}
    (scanned : catalog.workspace.scan moment.disk = .ok scan) :
    catalog.refresh moment =
      (catalog.refreshFrom moment scan, .ok (catalog.refreshFrom moment scan).components) := by
  rw [refresh, Workspace.survey_of_scan scanned]

/-- A refresh puts into the cache only what it finds in scanned files. -/
theorem refresh_cache (catalog : Catalog) (moment : Moment) :
    catalog.cache.Becomes
      (fun component => ∃ scan, catalog.workspace.scan moment.disk = .ok scan ∧
        ∃ path ∈ scan.paths, catalog.analyzer.component? moment.disk path = some component)
      (catalog.refresh moment).1.cache := by
  rcases refresh_cases catalog moment with
    ⟨scan, scanned, refreshed⟩ | ⟨fault, events, failed, refreshed⟩
  · rw [refreshed]
    refine .trans ((pass_cache catalog moment scan.paths).mono ?_) (Pass.freshCache_cache _ _)
    exact fun component finds => ⟨scan, scanned, finds⟩
  · rw [refreshed]
    exact .unchanged

/-- What stays of a catalog in a run: it works on its caches by their operations, and they
are the caches it was given if they were to begin with; its analyzer and the mode of the
cache are the same. -/
structure WorksOn (start next : Catalog) : Prop where
  cache : start.cache.Becomes (fun _ => True) next.cache
  cacheIsGiven : next.cacheIsGiven = start.cacheIsGiven
  designs : start.designs.Becomes next.designs
  designsAreGiven : next.designsAreGiven = start.designsAreGiven
  ownMode : next.ownMode = start.ownMode
  analyzer : next.analyzer = start.analyzer

variable {start next : Catalog}

theorem WorksOn.refresh (same : start.WorksOn next) (moment : Moment) :
    start.WorksOn (next.refresh moment).1 := by
  have cache := same.cache.trans ((refresh_cache next moment).mono fun _ _ => trivial)
  rcases refresh_cases next moment with ⟨scan, -, refreshed⟩ | ⟨fault, events, -, refreshed⟩
  · rw [refreshed] at cache ⊢
    exact ⟨cache, same.cacheIsGiven, same.designs.clear, same.designsAreGiven, same.ownMode,
      same.analyzer⟩
  · rw [refreshed] at cache ⊢
    exact ⟨cache, same.cacheIsGiven, same.designs, same.designsAreGiven, same.ownMode,
      same.analyzer⟩

theorem WorksOn.designOf (same : start.WorksOn next) (moment : Moment) (category : Option String)
    (components : List Component) :
    start.WorksOn (next.designOf moment category components).1 := by
  have read := same.designs.get moment.designClock (designKey category)
  unfold Catalog.designOf
  dsimp only
  split
  · rename_i designs snapshot found
    rw [found] at read
    exact { same with designs := read }
  · rename_i designs found
    rw [found] at read
    exact { same with designs := read.set _ _ _ _ }

theorem perform_worksOn (same : start.WorksOn next) (moment : Moment) (step : Step) :
    start.WorksOn (next.perform moment step) :=
  perform_preserves (P := start.WorksOn) step
    (fun _ same => same.refresh moment)
    (fun _ _ same => { same with })
    (fun _ category components _ same => same.designOf moment category components)
    (fun _ path same => { same with cache := same.cache.invalidate _ path })
    (fun _ same => { same with cache := same.cache.invalidateAll _ })
    (fun _ _ _ same => { same with })
    same

theorem run_worksOn (start : Catalog) (steps : List (Moment × Step)) :
    start.WorksOn (start.run steps) :=
  run_preserves (P := start.WorksOn) (fun _ step _ same => perform_worksOn same step.1 step.2)
    ⟨.unchanged, rfl, .unchanged, rfl, rfl, rfl⟩

/-!
The settings of a catalog that was opened can be used, and those of its cache can be
changed without harm to the others.  So it can scan its project at any time.
-/

/-- The catalog can scan its project. -/
structure IsReady (catalog : Catalog) : Prop where
  coherent : catalog.workspace.IsCoherent
  hasRoots : ∃ roots, catalog.workspace.scanRoots = .ok roots

/-- A catalog that can scan its project can be refreshed, unless the machine does not tell
of a scanned directory whether it is there. -/
theorem IsReady.refresh_cases {catalog : Catalog} (ready : catalog.IsReady) (moment : Moment) :
    (∃ fault events, catalog.workspace.IsRefused moment.disk fault ∧
      catalog.refresh moment = (catalog.observe events, .error fault)) ∨
    ∃ scan, catalog.workspace.scan moment.disk = .ok scan ∧
      catalog.refresh moment =
        (catalog.refreshFrom moment scan, .ok (catalog.refreshFrom moment scan).components) := by
  rcases Catalog.refresh_cases catalog moment with found | ⟨fault, events, failed, refreshed⟩
  · exact .inr found
  · obtain ⟨roots, areRoots⟩ := ready.hasRoots
    have refuses := (Workspace.scan_eq_error_iff areRoots).mp failed
    exact .inl ⟨fault, events, ⟨roots, areRoots, refuses⟩, refreshed⟩

theorem refresh_workspace (catalog : Catalog) (moment : Moment) :
    (catalog.refresh moment).1.workspace = catalog.workspace := by
  rcases refresh_cases catalog moment with ⟨scan, -, refreshed⟩ | ⟨fault, events, -, refreshed⟩ <;>
    rw [refreshed] <;> rfl

theorem designOf_workspace (catalog : Catalog) (moment : Moment) (category : Option String)
    (components : List Component) :
    (catalog.designOf moment category components).1.workspace = catalog.workspace := by
  unfold designOf
  dsimp only
  split <;> rfl

theorem IsReady.congr {catalog other : Catalog} (ready : catalog.IsReady)
    (same : other.workspace = catalog.workspace) : other.IsReady := by
  cases ready with
  | mk coherent hasRoots => exact ⟨same ▸ coherent, same ▸ hasRoots⟩

theorem IsReady.configure {catalog : Catalog} (ready : catalog.IsReady) {updates : Entries}
    (only : Workspace.OnlyCache updates) : (catalog.updateSettings updates).1.IsReady := by
  obtain ⟨entries, enabled, size, updated, coherent⟩ :=
    Workspace.update_of_onlyCache ready.coherent only
  have same : (catalog.updateSettings updates).1.workspace =
      (catalog.workspace.update updates).1 := rfl
  refine ⟨same ▸ coherent, ?_⟩
  rw [same, updated]
  exact ready.hasRoots

theorem perform_isReady {catalog : Catalog} (ready : catalog.IsReady) (moment : Moment)
    {step : Step} (only : step.IsCacheOnly) : (catalog.perform moment step).IsReady :=
  perform_preserves (P := IsReady) step
    (fun next ready => ready.congr (refresh_workspace next moment))
    (fun _ _ ready => ready.congr rfl)
    (fun next category components _ ready =>
      ready.congr (designOf_workspace next moment category components))
    (fun _ _ ready => ready.congr rfl)
    (fun _ ready => ready.congr rfl)
    (fun _ updates isConfigure ready => ready.configure (by subst isConfigure; exact only))
    ready

theorem run_isReady {catalog : Catalog} (ready : catalog.IsReady) {steps : List (Moment × Step)}
    (only : ∀ step ∈ steps, step.2.IsCacheOnly) : (catalog.run steps).IsReady :=
  run_preserves (P := IsReady)
    (fun _ step member ready => perform_isReady ready step.1 (only step member)) ready

/-- A project that scans one directory, with the default settings else. -/
def plainWorkspace : Workspace :=
  { users := { home := [], others := [] }
    root := { slashes := 1, parts := [['p']] }
    configPath := { slashes := 1, parts := [['p'], ['c']] }
    entries := [(.text "scanPaths", .texts ["s"])]
    settings := { Settings.default with scanPaths := ["s"] } }

theorem isReady_of_plainWorkspace {catalog : Catalog}
    (isPlain : catalog.workspace = plainWorkspace) : catalog.IsReady := by
  have coherent : plainWorkspace.IsCoherent := ⟨by rfl, by rfl⟩
  exact ⟨isPlain ▸ coherent, isPlain ▸ ⟨[{ slashes := 1, parts := [['p'], ['s']] }], by rfl⟩⟩

/-- A catalog that was just opened on that project. -/
def newCatalog : Catalog :=
  Catalog.start plainWorkspace (Analyzer.standard Props.bySource none) { rules := [] } {} []

end Catalog

end ComponentAtlas
