/-
Module: ComponentAtlas.Proofs.Catalog.Accounting
Purpose: What the cache of components is asked in a refresh, and what its counts tell of
  it.
Main exports:
  Catalog.Lookup, Pass.lookup, Pass.load_eq, Pass.lookups, Catalog.lookupsOf,
  load_counts, run_counts, refreshes_count
-/
import ComponentAtlas.Proofs.Catalog.Stock

namespace ComponentAtlas.Catalog

/-!
When it is a file's turn in a pass, its time is compared with that of its cached
component.  What the comparison comes to decides whether the file is analyzed.
-/

/-- What a pass meets in the cache when it is a file's turn. -/
inductive Lookup where
  /-- The time of the file cannot be read, so the cache is not asked. -/
  | untimed (fault : Fault)
  /-- The time of the cached component cannot be compared with that of the file. -/
  | incomparable
  /-- No component of the file is cached. -/
  | missing
  /-- The cached component is older than the file. -/
  | outdated
  /-- The cached component is as new as the file, and is taken in place of an analysis. -/
  | served (component : Component)

namespace Lookup

def isServed : Lookup → Bool
  | .served _ => true
  | _ => false

/-- The cache had no component of the file, or one that is older than the file. -/
def isVain : Lookup → Bool
  | .missing | .outdated => true
  | _ => false

end Lookup

namespace Pass

variable {analyzer : Analyzer} {mode : Cache.Mode} {moment : Moment} {pass : Pass} {path : Path}

/-- The slot of a file, as long as caching is switched on. -/
def cached? (pass : Pass) (mode : Cache.Mode) (path : Path) : Option (Cache.Slot Float) :=
  if mode.enabled then pass.cache.find? path.text else none

/-- What the pass meets in its cache for a file. -/
def lookup (pass : Pass) (mode : Cache.Mode) (disk : Disk) (path : Path) : Lookup :=
  match disk.modified path with
  | .error fault => .untimed fault
  | .ok modified =>
    match pass.cached? mode path with
    | none => .missing
    | some slot =>
      match slot.component.lastModified.atLeast? modified with
      | none => .incomparable
      | some false => .outdated
      | some true => .served slot.component

/-- What the pass meets for each file of a list, when it is the file's turn. -/
def lookups (analyzer : Analyzer) (mode : Cache.Mode) (moment : Moment) (pass : Pass) :
    List Path → List (Path × Lookup)
  | [] => []
  | path :: rest =>
    (path, pass.lookup mode moment.disk path) ::
      lookups analyzer mode moment (load analyzer mode moment pass path) rest

/-- The pass after the component of a file was taken from the cache. -/
def serve (pass : Pass) (mode : Cache.Mode) (clock : Float) (path : Path)
    (component : Component) : Pass :=
  { pass with
    cache := (pass.cache.get mode clock path.text).1
    components := placeComponent component pass.components
    reused := pass.reused + 1 }

theorem cached?_spec {slot : Cache.Slot Float} (cached : pass.cached? mode path = some slot) :
    mode.enabled ∧ pass.cache.find? path.text = some slot := by
  unfold cached? at cached
  split at cached
  · rename_i enabled
    exact ⟨enabled, cached⟩
  · cases cached

theorem isFresh?_eq (pass : Pass) (mode : Cache.Mode) (path : Path) (modified : Timestamp) :
    pass.cache.isFresh? mode path.text modified =
      match pass.cached? mode path with
      | none => some false
      | some slot => slot.component.lastModified.atLeast? modified := by
  unfold Cache.Records.isFresh? cached?
  split
  · cases pass.cache.find? path.text <;> rfl
  · rfl

theorem reuse?_of_cached {slot : Cache.Slot Float} (cached : pass.cached? mode path = some slot)
    (clock : Float) :
    pass.reuse? mode clock path = some (pass.serve mode clock path slot.component) := by
  obtain ⟨enabled, found⟩ := cached?_spec cached
  simp [reuse?, serve, Cache.Records.get, enabled, found]

/-- What is met in the cache decides how a file is loaded. -/
theorem load_eq (analyzer : Analyzer) (mode : Cache.Mode) (moment : Moment) (pass : Pass)
    (path : Path) :
    load analyzer mode moment pass path =
      match pass.lookup mode moment.disk path with
      | .untimed fault => pass.observe [untimed path fault]
      | .incomparable => pass.observe [analysisFailed path .incomparableTimes]
      | .missing | .outdated => pass.analyze analyzer mode moment path
      | .served component => pass.serve mode moment.cacheClock path component := by
  unfold load lookup
  cases moment.disk.modified path with
  | error fault => rfl
  | ok modified =>
      dsimp only
      rw [isFresh?_eq]
      cases cached : pass.cached? mode path with
      | none => rfl
      | some slot =>
          dsimp only
          cases slot.component.lastModified.atLeast? modified with
          | none => rfl
          | some isFresh =>
              cases isFresh with
              | false => rfl
              | true =>
                  dsimp only
                  rw [reuse?_of_cached cached]
                  rfl

/-- A file that is served is cached, so that reading it counts as a hit. -/
theorem exists_slot_of_served {disk : Disk} {component : Component}
    (served : pass.lookup mode disk path = .served component) :
    mode.enabled ∧ ∃ slot, pass.cache.find? path.text = some slot ∧ slot.component = component := by
  unfold lookup at served
  split at served
  · cases served
  · split at served
    · cases served
    · rename_i slot cached
      obtain ⟨enabled, found⟩ := cached?_spec cached
      split at served <;> cases served
      exact ⟨enabled, slot, found, rfl⟩

end Pass

/-!
Only a read moves the counts, and a pass reads only components that it takes.
-/

/-- The counts of a cache go from those of another one by some hits and no misses. -/
structure CountsOn (before : Cache.Records Float) (hits : Nat) (after : Cache.Records Float) :
    Prop where
  hits : after.hits = before.hits + hits
  misses : after.misses = before.misses

namespace CountsOn

variable {before middle after : Cache.Records Float} {first second : Nat}

theorem refl (cache : Cache.Records Float) : CountsOn cache 0 cache := ⟨rfl, rfl⟩

theorem trans (left : CountsOn before first middle) (right : CountsOn middle second after) :
    CountsOn before (first + second) after :=
  ⟨by rw [right.hits, left.hits, Nat.add_assoc], right.misses.trans left.misses⟩

theorem put (cache : Cache.Records Float) (mode : Cache.Mode) (now : Float)
    (component : Component) : CountsOn cache 0 (cache.put mode now component).1 := by
  unfold Cache.Records.put Cache.Records.evict
  split
  · split <;> exact ⟨rfl, rfl⟩
  · exact ⟨rfl, rfl⟩

theorem get {cache : Cache.Records Float} {mode : Cache.Mode} {path : String}
    {slot : Cache.Slot Float} (enabled : mode.enabled) (found : cache.find? path = some slot)
    (now : Float) : CountsOn cache 1 (cache.get mode now path).1 := by
  simp only [Cache.Records.get, enabled, if_true, found]
  exact ⟨rfl, rfl⟩

theorem invalidate (cache : Cache.Records Float) (mode : Cache.Mode) (path : String) :
    CountsOn cache 0 (cache.invalidate mode path) := by
  unfold Cache.Records.invalidate
  split <;> exact ⟨rfl, rfl⟩

end CountsOn

namespace Pass

variable {analyzer : Analyzer} {mode : Cache.Mode} {moment : Moment}

theorem analyze_counts (pass : Pass) (path : Path) :
    CountsOn pass.cache 0 (pass.analyze analyzer mode moment path).cache := by
  unfold analyze
  split
  · exact .refl _
  · split
    · exact .put _ _ _ _
    · exact .refl _

/-- Loading a file counts a hit when the file is served, and nothing else. -/
theorem load_counts (pass : Pass) (path : Path) :
    CountsOn pass.cache (if (pass.lookup mode moment.disk path).isServed then 1 else 0)
      (load analyzer mode moment pass path).cache := by
  rw [load_eq]
  cases met : pass.lookup mode moment.disk path with
  | untimed fault => exact .refl _
  | incomparable => exact .refl _
  | missing => exact analyze_counts pass path
  | outdated => exact analyze_counts pass path
  | served component =>
      obtain ⟨enabled, slot, found, -⟩ := exists_slot_of_served met
      exact .get enabled found moment.cacheClock

/-- A pass counts a hit for each file that is served. -/
theorem run_counts (paths : List Path) (pass : Pass) :
    CountsOn pass.cache ((lookups analyzer mode moment pass paths).countP (·.2.isServed))
      (paths.foldl (load analyzer mode moment) pass).cache := by
  induction paths generalizing pass with
  | nil => exact .refl _
  | cons path rest ih =>
      have counted := (load_counts pass path).trans (ih (load analyzer mode moment pass path))
      rw [lookups, List.countP_cons, Nat.add_comm]
      exact counted

theorem freshCache_counts (pass : Pass) (scanned : List String) :
    CountsOn pass.cache 0 (pass.freshCache mode scanned) := by
  unfold freshCache
  generalize pass.stale mode scanned = files
  generalize pass.cache = cache
  induction files generalizing cache with
  | nil => exact .refl _
  | cons file rest ih => exact (CountsOn.invalidate cache mode file).trans (ih _)

end Pass

/-- What a refresh meets in the cache, file by file; a refresh that fails asks nothing. -/
def lookupsAt (catalog : Catalog) (moment : Moment) : List (Path × Lookup) :=
  match catalog.workspace.scan moment.disk with
  | .ok scan =>
    Pass.lookups catalog.analyzer catalog.cacheMode moment { cache := catalog.cache } scan.paths
  | .error _ => []

/-- What refreshes at one moment after the other meet in the cache. -/
def lookupsOf (catalog : Catalog) : List Moment → List (Path × Lookup)
  | [] => []
  | moment :: rest => catalog.lookupsAt moment ++ lookupsOf (catalog.refresh moment).1 rest

/-- The steps of a run that only refreshes. -/
def refreshes (moments : List Moment) : List (Moment × Step) :=
  moments.map fun moment => (moment, .refresh)

theorem refresh_counts (catalog : Catalog) (moment : Moment) :
    CountsOn catalog.cache ((catalog.lookupsAt moment).countP (·.2.isServed))
      (catalog.refresh moment).1.cache := by
  rcases refresh_cases catalog moment with
    ⟨scan, scanned, refreshed⟩ | ⟨fault, events, failed, refreshed⟩
  · have passed : CountsOn catalog.cache _ (catalog.pass moment scan.paths).cache :=
      Pass.run_counts scan.paths { cache := catalog.cache }
    rw [lookupsAt, scanned, refreshed]
    exact passed.trans (Pass.freshCache_counts _ _)
  · rw [lookupsAt, failed, refreshed]
    exact .refl _

theorem run_counts (catalog : Catalog) (moments : List Moment) :
    CountsOn catalog.cache ((catalog.lookupsOf moments).countP (·.2.isServed))
      (catalog.run (refreshes moments)).cache := by
  induction moments generalizing catalog with
  | nil => exact .refl _
  | cons moment rest ih =>
      rw [lookupsOf, List.countP_append]
      exact (refresh_counts catalog moment).trans (ih (catalog.refresh moment).1)

/-- After refreshes the hits have gone up by the number of files that were served from the
cache.  The misses stay where they were, whatever the cache had to be asked in vain; so
they tell the files without a cached component as new as the file only when there are
none, and the hit rate is a share of the files that were served. -/
theorem refreshes_count (catalog : Catalog) (moments : List Moment) :
    let loads := (catalog.lookupsOf moments).map (·.2)
    let served := loads.countP Lookup.isServed
    let vain := loads.countP Lookup.isVain
    let before := catalog.cache
    let after := catalog.run (refreshes moments)
    statOf after "components" "hits" = some (.int (before.hits + served : Nat)) ∧
      statOf after "components" "misses" = some (.int before.misses) ∧
      (statOf after "components" "misses" = some (.int (before.misses + vain : Nat)) ↔
        ∀ load ∈ loads, ¬ load.isVain) ∧
      statOf after "components" "hit_rate" = some (.float
        (Cache.shareOf (before.hits + served) (before.hits + served + before.misses))) := by
  intro loads served vain before after
  obtain ⟨hits, misses⟩ := run_counts catalog moments
  have areServed : (catalog.lookupsOf moments).countP (·.2.isServed) = served :=
    (List.countP_map (p := Lookup.isServed)).symm
  rw [areServed] at hits
  have isHits : statOf after "components" "hits" = some (.int after.cache.hits) := rfl
  have isMisses : statOf after "components" "misses" = some (.int after.cache.misses) := rfl
  have isRate : statOf after "components" "hit_rate" =
      some (.float (Cache.shareOf after.cache.hits (after.cache.hits + after.cache.misses))) := rfl
  rw [isHits, isMisses, isRate, hits, misses]
  refine ⟨rfl, rfl, ?_, rfl⟩
  change some (Data.int before.misses) = some (.int (before.misses + vain : Nat)) ↔ _
  rw [← List.countP_eq_zero, Option.some.injEq, Data.int.injEq, Int.ofNat_inj]
  exact ⟨fun same => Nat.left_eq_add.mp same, fun none => Nat.left_eq_add.mpr none⟩

end ComponentAtlas.Catalog
