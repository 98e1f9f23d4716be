/-
Module: ComponentAtlas.Proofs.Catalog.Stock
Purpose: Which of the caches that a catalog is given it works on.
Main exports:
  Catalog.UsesCache, Catalog.UsesDesigns, usesCache_iff, openOn_uses_given
-/
import ComponentAtlas.Proofs.Catalog.Run

namespace ComponentAtlas.Catalog

/-!
A catalog that is given caches asks them for their truth value, which is that of their
size.  So it works on a given cache that holds something, and leaves an empty one aside,
as it does any cache of components while caching is switched off.
-/

section Given

variable {stock : Stock} {mode : Cache.Mode} {cache : Cache.Records Float}
  {designs : Cache.Expiring Float Design.Snapshot}

theorem filledCache?_of_given (given : stock.cache = some cache) :
    stock.filledCache? mode =
      if cache.size (stock.ownMode.getD mode) = 0 then none else some cache := by
  by_cases isEmpty : cache.size (stock.ownMode.getD mode) = 0 <;>
    simp [Stock.filledCache?, given, Option.filter_some, isEmpty]

theorem startCache_of_given (given : stock.cache = some cache) :
    stock.startCache mode =
      if cache.size (stock.ownMode.getD mode) = 0 then {} else cache := by
  rw [Stock.startCache, filledCache?_of_given given]
  split <;> rfl

theorem startMode_of_given (given : stock.cache = some cache) :
    stock.startMode mode =
      if cache.size (stock.ownMode.getD mode) = 0 then none else stock.ownMode := by
  rw [Stock.startMode, filledCache?_of_given given]
  split <;> rfl

theorem filledDesigns?_of_given (given : stock.designs = some designs) :
    stock.filledDesigns? = if designs.leases = [] then none else some designs := by
  by_cases isEmpty : designs.leases = [] <;>
    simp [Stock.filledDesigns?, given, Option.filter_some, isEmpty]

theorem startDesigns_of_given (given : stock.designs = some designs) (settings : Settings) :
    stock.startDesigns settings =
      if designs.leases = [] then
        { maxSize := designCapacity, lifetime := settings.designSystemTtl.toFloat }
      else designs := by
  rw [Stock.startDesigns, filledDesigns?_of_given given]
  split <;> rfl

end Given

/-- One of the statistics of the caches. -/
def statOf (catalog : Catalog) (part name : String) : Option Data :=
  (catalog.cacheStats.field? part).bind fun stats => stats.field? name

/-- The catalog works on the given cache of components, not on one like it: it starts from
it, and whatever run follows, its cache is the given one after reads, writes and removals.
The statistics are those of the given cache, with its limit and with its counts going on. -/
structure UsesCache (catalog : Catalog) (cache : Cache.Records Float)
    (ownMode : Option Cache.Mode) : Prop where
  starts : catalog.cacheIsGiven ∧ catalog.cache = cache ∧ catalog.ownMode = ownMode
  goesOn : ∀ steps : List (Moment × Step),
    (catalog.run steps).cacheIsGiven ∧
      cache.Becomes (fun _ => True) (catalog.run steps).cache ∧
      (catalog.run steps).ownMode = ownMode
  statistics : ∀ steps : List (Moment × Step), ∃ hits misses : Nat,
    let after := catalog.run steps
    statOf after "components" "max_size" = some (.int (cache.limit after.cacheMode)) ∧
      statOf after "components" "hits" = some (.int (cache.hits + hits : Nat)) ∧
      statOf after "components" "misses" = some (.int (cache.misses + misses : Nat))

/-- The catalog works on the given cache of design systems, not on one like it.  A refresh
clears the counts of that cache, so they are told as they are after the run. -/
structure UsesDesigns (catalog : Catalog) (designs : Cache.Expiring Float Design.Snapshot) :
    Prop where
  starts : catalog.designsAreGiven ∧ catalog.designs = designs
  goesOn : ∀ steps : List (Moment × Step),
    (catalog.run steps).designsAreGiven ∧
      designs.Becomes (catalog.run steps).designs ∧
      (catalog.run steps).designs.lifetime = designs.lifetime
  statistics : ∀ steps : List (Moment × Step),
    let after := catalog.run steps
    statOf after "design_system" "max_size" = some (.int designs.maxSize) ∧
      statOf after "design_system" "hits" = some (.int after.designs.hits) ∧
      statOf after "design_system" "misses" = some (.int after.designs.misses)

/-- Starting from a cache is all it takes to work on it in every run. -/
theorem usesCache_iff {catalog : Catalog} {cache : Cache.Records Float}
    {ownMode : Option Cache.Mode} :
    catalog.UsesCache cache ownMode ↔
      catalog.cacheIsGiven ∧ catalog.cache = cache ∧ catalog.ownMode = ownMode := by
  constructor
  · exact UsesCache.starts
  · rintro ⟨isGiven, rfl, rfl⟩
    refine ⟨⟨isGiven, rfl, rfl⟩, fun steps => ?_, fun steps => ?_⟩
    · have worksOn := run_worksOn catalog steps
      exact ⟨worksOn.cacheIsGiven.trans isGiven, worksOn.cache, worksOn.ownMode⟩
    · obtain ⟨sameCapacity, hits, misses⟩ := (run_worksOn catalog steps).cache.counts
      refine ⟨(catalog.run steps).cache.hits - catalog.cache.hits,
        (catalog.run steps).cache.misses - catalog.cache.misses, ?_, ?_, ?_⟩
      · rw [Cache.Records.limit, ← sameCapacity]
        rfl
      · rw [Nat.add_sub_cancel' hits]
        rfl
      · rw [Nat.add_sub_cancel' misses]
        rfl

theorem usesDesigns_iff {catalog : Catalog} {designs : Cache.Expiring Float Design.Snapshot} :
    catalog.UsesDesigns designs ↔ catalog.designsAreGiven ∧ catalog.designs = designs := by
  constructor
  · exact UsesDesigns.starts
  · rintro ⟨areGiven, rfl⟩
    refine ⟨⟨areGiven, rfl⟩, fun steps => ?_, fun steps => ?_⟩
    · have worksOn := run_worksOn catalog steps
      exact ⟨worksOn.designsAreGiven.trans areGiven, worksOn.designs, worksOn.designs.keeps.2⟩
    · rw [← (run_worksOn catalog steps).designs.keeps.1]
      exact ⟨rfl, rfl, rfl⟩

section Opening

variable {workspace : Workspace} {analyzer : Analyzer} {detector : Category.Detector Float}
  {stock : Stock} {disk : Disk} {catalog : Catalog}

theorem openOn_eq_ok_iff :
    (openOn workspace analyzer detector stock disk).2 = .ok catalog ↔
      ∃ result, workspace.check disk = .ok result ∧ result.isValid ∧
        catalog = start workspace analyzer detector stock (result.warnings.map fun warning =>
          record .warning ("Config warning: " ++ warning)) := by
  unfold openOn
  cases checked : workspace.check disk with
  | error fault => simp
  | ok result =>
      by_cases valid : result.isValid
      · simp only [valid, if_true, Except.ok.injEq, exists_eq_left', true_and]
        exact eq_comm
      · simp [valid]

theorem usesCache_of_openOn (opened : (openOn workspace analyzer detector stock disk).2 = .ok catalog)
    {cache : Cache.Records Float} (given : stock.cache = some cache) :
    catalog.UsesCache cache stock.ownMode ↔
      cache.size (stock.ownMode.getD workspace.cacheMode) ≠ 0 := by
  obtain ⟨_, _, _, isStart⟩ := openOn_eq_ok_iff.mp opened
  have isGiven : catalog.cacheIsGiven = (stock.filledCache? workspace.cacheMode).isSome := by
    rw [isStart, start]
  have startsFrom : catalog.cache = stock.startCache workspace.cacheMode := by rw [isStart, start]
  have startsIn : catalog.ownMode = stock.startMode workspace.cacheMode := by rw [isStart, start]
  rw [usesCache_iff, isGiven, startsFrom, startsIn, filledCache?_of_given given,
    startCache_of_given given, startMode_of_given given]
  by_cases isUnseen : cache.size (stock.ownMode.getD workspace.cacheMode) = 0
  · simp [isUnseen]
  · simp [isUnseen]

theorem usesDesigns_of_openOn (opened : (openOn workspace analyzer detector stock disk).2 = .ok catalog)
    {designs : Cache.Expiring Float Design.Snapshot} (given : stock.designs = some designs) :
    catalog.UsesDesigns designs ↔ designs.leases ≠ [] := by
  obtain ⟨_, _, _, isStart⟩ := openOn_eq_ok_iff.mp opened
  have areGiven : catalog.designsAreGiven = stock.filledDesigns?.isSome := by rw [isStart, start]
  have startsFrom : catalog.designs = stock.startDesigns workspace.settings := by
    rw [isStart, start]
  rw [usesDesigns_iff, areGiven, startsFrom, filledDesigns?_of_given given,
    startDesigns_of_given given]
  by_cases isEmpty : designs.leases = []
  · simp [isEmpty]
  · simp [isEmpty]

/-- Without a cache that holds nothing to be seen, the same catalog is opened. -/
theorem openOn_without_cache (opened : (openOn workspace analyzer detector stock disk).2 = .ok catalog)
    {cache : Cache.Records Float} (given : stock.cache = some cache)
    (isUnseen : cache.size (stock.ownMode.getD workspace.cacheMode) = 0) :
    (openOn workspace analyzer detector { stock with cache := none } disk).2 = .ok catalog := by
  obtain ⟨result, checked, valid, isStart⟩ := openOn_eq_ok_iff.mp opened
  refine openOn_eq_ok_iff.mpr ⟨result, checked, valid, ?_⟩
  rw [isStart, start, start, startCache_of_given given, startMode_of_given given,
    filledCache?_of_given given, if_pos isUnseen, if_pos isUnseen, if_pos isUnseen]
  rfl

theorem openOn_without_designs
    (opened : (openOn workspace analyzer detector stock disk).2 = .ok catalog)
    {designs : Cache.Expiring Float Design.Snapshot} (given : stock.designs = some designs)
    (isEmpty : designs.leases = []) :
    (openOn workspace analyzer detector { stock with designs := none } disk).2 = .ok catalog := by
  obtain ⟨result, checked, valid, isStart⟩ := openOn_eq_ok_iff.mp opened
  refine openOn_eq_ok_iff.mpr ⟨result, checked, valid, ?_⟩
  rw [isStart, start, start, startDesigns_of_given given, filledDesigns?_of_given given,
    if_pos isEmpty, if_pos isEmpty]
  rfl

/-- A catalog that is given caches works on each of them exactly when it holds something
that can be seen.  Otherwise the catalog is the one that is opened without it, so that
nothing of it counts, its limit and its lifetime neither. -/
theorem openOn_uses_given (opened : (openOn workspace analyzer detector stock disk).2 = .ok catalog) :
    (∀ cache, stock.cache = some cache →
      (catalog.UsesCache cache stock.ownMode ↔
        cache.size (stock.ownMode.getD workspace.cacheMode) ≠ 0) ∧
      (cache.size (stock.ownMode.getD workspace.cacheMode) = 0 →
        (openOn workspace analyzer detector { stock with cache := none } disk).2 = .ok catalog)) ∧
    (∀ designs, stock.designs = some designs →
      (catalog.UsesDesigns designs ↔ designs.leases ≠ []) ∧
      (designs.leases = [] →
        (openOn workspace analyzer detector { stock with designs := none } disk).2 =
          .ok catalog)) := by
  constructor
  · intro cache given
    exact ⟨usesCache_of_openOn opened given, openOn_without_cache opened given⟩
  · intro designs given
    exact ⟨usesDesigns_of_openOn opened given, openOn_without_designs opened given⟩

end Opening

/-- A project all of whose settings are written. -/
def writtenWorkspace : Workspace :=
  { plainWorkspace with
    entries := plainWorkspace.settings.fields.map fun field => (.text field.1, field.2) }

/-- A disk without files. -/
def bareDisk : Disk := { root := Entry.emptyDirectory }

theorem entryAt_bareDisk :
    bareDisk.entryAt { slashes := 1, parts := [['p'], ['s']] } = .error .missing := by
  have atTop : bareDisk.at? [] = some Entry.emptyDirectory := rfl
  have isShort : Path.isLong { slashes := 1, parts := [['p'], ['s']] } = false := by decide +kernel
  have noWay : bareDisk.locateFrom maxLinks [] [['p'], ['s']] = .error .missing := by
    rw [Disk.locateFrom, List.reverse_nil, atTop]
    rfl
  rw [Disk.entryAt, Disk.locate, isShort, noWay]
  rfl

theorem check_writtenWorkspace :
    ∃ result, writtenWorkspace.check bareDisk = .ok result ∧ result.isValid := by
  have nothing : bareDisk.presence { slashes := 1, parts := [['p'], ['s']] } = .ok .nothing := by
    rw [Disk.presence, entryAt_bareDisk]
    rfl
  let site : Settings.Site :=
    { disk := bareDisk, users := writtenWorkspace.users, root := writtenWorkspace.root }
  have scanPaths : Settings.checkScanPaths site (some (.list [.text "s"])) =
      .ok (.warning "Scan path does not exist: s") := by
    have written : Settings.checkScanPath site (.text "s") =
        .ok (.warning "Scan path does not exist: s") :=
      bind_eq_ok.mpr ⟨_, rfl, bind_eq_ok.mpr ⟨_, nothing, rfl⟩⟩
    exact bind_eq_ok.mpr ⟨_, mapM_cons_eq_ok.mpr ⟨_, [], written, rfl, rfl⟩, rfl⟩
  have checked : writtenWorkspace.check bareDisk = _ := bind_eq_ok.mpr ⟨_, scanPaths, rfl⟩
  exact ⟨_, checked, by decide⟩

/-- Caches with limits of their own that hold nothing yet. -/
def emptyStock : Stock :=
  { cache := some { capacity := some 7 }, designs := some { maxSize := 3, lifetime := 300 } }

theorem openOn_leaves_emptyStock : ∃ catalog,
    (openOn writtenWorkspace (Analyzer.standard Props.bySource none) { rules := [] } emptyStock
      bareDisk).2 = .ok catalog ∧
    ¬ catalog.UsesCache { capacity := some 7 } none ∧
    ¬ catalog.UsesDesigns { maxSize := 3, lifetime := 300 } := by
  obtain ⟨result, checked, valid⟩ := check_writtenWorkspace
  have opens : ∃ catalog, (openOn writtenWorkspace (Analyzer.standard Props.bySource none)
      { rules := [] } emptyStock bareDisk).2 = .ok catalog :=
    ⟨_, openOn_eq_ok_iff.mpr ⟨result, checked, valid, rfl⟩⟩
  obtain ⟨catalog, opened⟩ := opens
  refine ⟨catalog, opened, fun uses => ?_, fun uses => ?_⟩
  · have isFilled := ((openOn_uses_given opened).1 _ rfl).1.mp uses
    simp [Cache.Records.size, Cache.Records.visible] at isFilled
  · have isFilled := ((openOn_uses_given opened).2 _ rfl).1.mp uses
    exact isFilled rfl

end ComponentAtlas.Catalog
