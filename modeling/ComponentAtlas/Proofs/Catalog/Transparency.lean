/-
Module: ComponentAtlas.Proofs.Catalog.Transparency
Purpose: A refresh gives what a pass without a cache gives, whatever the cache went
  through, but for the times of files that were set back.
Main exports:
  Catalog.cacheless, Catalog.Serves, Catalog.Provenance, load_spec, pass_spec,
  run_remembers, refresh_transparent
-/
import Mathlib.Data.List.Forall2
import Mathlib.Data.List.Induction
import ComponentAtlas.Proofs.Catalog.Run
import ComponentAtlas.Proofs.Disk.Resolution

namespace ComponentAtlas

namespace Catalog

/-!
Components are placed by their files, in the order in which the files are first met.
-/

theorem placeComponent_of_new {component : Component} {components : List Component}
    (new : ∀ other ∈ components, other.filePath ≠ component.filePath) :
    placeComponent component components = components ++ [component] := by
  induction components with
  | nil => rfl
  | cons first rest ih =>
      rw [placeComponent, if_neg (new first List.mem_cons_self),
        ih fun other member => new other (List.mem_cons_of_mem _ member), List.cons_append]

theorem exists_related {related : Component → Component → Prop}
    {components others : List Component} (areRelated : List.Forall₂ related components others)
    {component : Component} (member : component ∈ components) :
    ∃ other ∈ others, related component other := by
  induction areRelated with
  | nil => cases member
  | @cons first second _ _ isRelated _ ih =>
      rcases List.mem_cons.mp member with rfl | later
      · exact ⟨second, List.mem_cons_self, isRelated⟩
      · obtain ⟨other, isOther, otherRelated⟩ := ih later
        exact ⟨other, List.mem_cons_of_mem _ isOther, otherRelated⟩

/-- A component that takes the place of another one keeps lists related. -/
theorem forall₂_placeComponent {related : Component → Component → Prop}
    (sameFile : ∀ first second, related first second → first.filePath = second.filePath)
    {component : Component} {components others : List Component}
    (areRelated : List.Forall₂ related components others)
    (isKnown : ∃ other ∈ others, other.filePath = component.filePath)
    (fits : ∀ other ∈ others, other.filePath = component.filePath → related component other) :
    List.Forall₂ related (placeComponent component components) others := by
  induction areRelated with
  | nil =>
      obtain ⟨other, member, _⟩ := isKnown
      cases member
  | @cons first second rest next isRelated areRelated ih =>
      have sameHere := sameFile first second isRelated
      unfold placeComponent
      split
      · rename_i isHere
        exact .cons (fits second List.mem_cons_self (sameHere ▸ isHere)) areRelated
      · rename_i isElsewhere
        refine .cons isRelated (ih ?_ fun other member => fits other (List.mem_cons_of_mem _ member))
        obtain ⟨other, member, isOther⟩ := isKnown
        rcases List.mem_cons.mp member with rfl | later
        · exact absurd (sameHere.trans isOther) isElsewhere
        · exact ⟨other, later, isOther⟩

/-!
A pass without a cache analyzes each scanned file that has a time.  The pass of a catalog
serves a file from the cache instead when the component there is as new as the file.
-/

/-- The component that is found in a file, when the time of the file can be read. -/
def foundAt (analyzer : Analyzer) (disk : Disk) (path : Path) : Option Component :=
  match disk.modified path with
  | .ok _ => analyzer.component? disk path
  | .error _ => none

/-- What a pass without a cache gives: each file once, in the order of the scan. -/
def cacheless (analyzer : Analyzer) (disk : Disk) (paths : List Path) : List Component :=
  paths.eraseDups.filterMap (foundAt analyzer disk)

/-- The component is the other one, but for a time that may be later. -/
def SameButLater (component other : Component) : Prop :=
  ∃ later, component = { other with lastModified := later } ∧
    other.lastModified.wall ≤ later.wall

/-- The component stands for the other one on the last of some disks: it differs at most
in a later time, and in nothing when the time of its file was never set back. -/
def Serves (disks : List Disk) (component other : Component) : Prop :=
  SameButLater component other ∧ ∃ path : Path, path.HasNames ∧ other.filePath = path.text ∧
    (Disk.NeverTurnBack disks path → component = other)

theorem Serves.filePath {disks : List Disk} {component other : Component}
    (serves : Serves disks component other) : component.filePath = other.filePath := by
  obtain ⟨⟨later, rfl, _⟩, _⟩ := serves
  rfl

theorem serves_self {disks : List Disk} {component : Component} {path : Path}
    (named : path.HasNames) (hasPath : component.filePath = path.text) :
    Serves disks component component :=
  ⟨⟨component.lastModified, rfl, le_refl _⟩, path, named, hasPath, fun _ => rfl⟩

/-- The component was found in a version of its file on one of the disks. -/
def Provenance (extractor : Props.Extractor) (detector : Option (Category.Detector Float))
    (disks : List Disk) (component : Component) : Prop :=
  ∃ disk ∈ disks, ∃ path content modified, path.HasNames ∧
    disk.versionAt? path = some (content, modified) ∧ modified.offset = some 0 ∧
      Analysis.componentOf extractor detector path content modified = some component

section Load

variable {extractor : Props.Extractor} {detector : Option (Category.Detector Float)}
  {history : List Disk} {disk : Disk} {path : Path} {modified : Timestamp}

/-- What an analysis finds now has its provenance on the last disk. -/
theorem provenance_of_component? (sound : disk.IsSound) (named : path.HasNames)
    {component : Component}
    (found : (Analyzer.standard extractor detector).component? disk path = some component) :
    Provenance extractor detector (history ++ [disk]) component := by
  obtain ⟨content, modified, version, isDate⟩ := Analyzer.exists_version_of_component? found
  refine ⟨disk, by simp, path, content, modified, named, version, sound.universal version, ?_⟩
  rw [← Analyzer.component?_standard named isDate version]
  exact found

/-- The times of files can be compared, and compare as their walls do. -/
theorem atLeast?_of_universal {left right : Timestamp} (leftUniversal : left.offset = some 0)
    (rightUniversal : right.offset = some 0) :
    left.atLeast? right = some (decide (right.wall ≤ left.wall)) := by
  simp [Timestamp.atLeast?, Timestamp.instant?, leftUniversal, rightUniversal]

theorem eq_of_universal {left right : Timestamp} (leftUniversal : left.offset = some 0)
    (rightUniversal : right.offset = some 0) (sameWall : left.wall = right.wall) :
    left = right := by
  cases left
  cases right
  cases leftUniversal
  cases rightUniversal
  cases sameWall
  rfl

/-- A component that was found in an earlier version of a file, and is no older than the
file is now, serves for the component that is in the file now. -/
theorem serves_of_provenance (sound : disk.IsSound) (named : path.HasNames)
    (notDirectory : disk.leadsToDirectory path = false)
    (advance : Disk.Advance (history ++ [disk]))
    {component : Component} (known : Provenance extractor detector (history ++ [disk]) component)
    (samePath : component.filePath = path.text) (isTime : disk.modified path = .ok modified)
    (fresh : component.lastModified.atLeast? modified = some true) :
    ∃ found, foundAt (Analyzer.standard extractor detector) disk path = some found ∧
      Serves (history ++ [disk]) component found := by
  obtain ⟨earlier, isEarlier, other, before, was, otherNamed, old, oldUniversal, isFound⟩ := known
  obtain ⟨hasPath, hasTime⟩ := Analysis.componentOf_spec isFound
  have isSame : other = path := Path.eq_of_text_eq otherNamed named (hasPath.symm.trans samePath)
  subst isSame
  obtain ⟨after, new⟩ := Disk.versionAt?_of_modified sound.isDirectory named isTime notDirectory
  have notOlder : modified.wall ≤ was.wall := by
    rw [hasTime, atLeast?_of_universal oldUniversal (sound.universal new)] at fresh
    simpa using fresh
  have sameContent : before = after := advance.same_content isEarlier old new notOlder
  subst sameContent
  refine ⟨{ component with lastModified := modified }, ?_, ⟨was, ?_, notOlder⟩, other, named,
    hasPath, fun steady => ?_⟩
  · unfold foundAt
    rw [isTime]
    dsimp only
    rw [Analyzer.component?_standard named (Disk.isDate_of_modified isTime) new,
      Analysis.componentOf_of_other_time was, isFound]
    rfl
  · rw [← hasTime]
  · have notLater : was.wall ≤ modified.wall := steady.not_later isEarlier old new
    have sameTime : was = modified :=
      eq_of_universal oldUniversal (sound.universal new) (le_antisymm notLater notOlder)
    rw [← sameTime, ← hasTime]

/-- The time of a file can be compared with that of any known component. -/
theorem isFresh?_ne_none {mode : Cache.Mode} {cache : Cache.Records Float}
    {disks : List Disk} (known : cache.Holds (Provenance extractor detector disks))
    (isUniversal : modified.offset = some 0) (file : String) :
    cache.isFresh? mode file modified ≠ none := by
  unfold Cache.Records.isFresh?
  split
  · split
    · rename_i slot found
      obtain ⟨_, _, _, _, was, _, _, oldUniversal, isFound⟩ :=
        known slot (Cache.Records.find?_spec found).1
      rw [(Analysis.componentOf_spec isFound).2, atLeast?_of_universal oldUniversal isUniversal]
      exact Option.some_ne_none _
    · exact Option.some_ne_none _
  · exact Option.some_ne_none _

theorem analyze_components {analyzer : Analyzer} (pass : Pass) (mode : Cache.Mode)
    (moment : Moment) (path : Path) :
    (pass.analyze analyzer mode moment path).components =
      match analyzer.component? moment.disk path with
      | none => pass.components
      | some component => placeComponent component pass.components := by
  unfold Pass.analyze Analyzer.component?
  cases analyzer.analyze moment.disk path with
  | error fault => rfl
  | ok analysis => cases found : analysis.component <;> simp [found, Pass.observe, Pass.keep]

theorem filePath_of_foundAt (named : path.HasNames) {found : Component}
    (isFound : foundAt (Analyzer.standard extractor detector) disk path = some found) :
    found.filePath = path.text := by
  unfold foundAt at isFound
  split at isFound
  · obtain ⟨content, modified, version, isDate⟩ := Analyzer.exists_version_of_component? isFound
    rw [Analyzer.component?_standard named isDate version] at isFound
    exact (Analysis.componentOf_spec isFound).1
  · cases isFound

/-- Loading a file puts a component in its place that serves for the one that is found in
the file now; a file in which none is found changes nothing. -/
theorem load_spec (mode : Cache.Mode) {moment : Moment} {pass : Pass}
    (sound : moment.disk.IsSound) (named : path.HasNames)
    (notDirectory : moment.disk.leadsToDirectory path = false)
    (advance : Disk.Advance (history ++ [moment.disk]))
    (known : pass.cache.Holds (Provenance extractor detector (history ++ [moment.disk]))) :
    match foundAt (Analyzer.standard extractor detector) moment.disk path with
    | none =>
      (Pass.load (Analyzer.standard extractor detector) mode moment pass path).components =
        pass.components
    | some found =>
      ∃ served, Serves (history ++ [moment.disk]) served found ∧
        (Pass.load (Analyzer.standard extractor detector) mode moment pass path).components =
          placeComponent served pass.components := by
  cases isTime : moment.disk.modified path with
  | error fault =>
      have isNone : foundAt (Analyzer.standard extractor detector) moment.disk path = none := by
        rw [foundAt, isTime]
      rw [isNone, Pass.load, isTime]
      rfl
  | ok modified =>
      have foundAt_eq : foundAt (Analyzer.standard extractor detector) moment.disk path =
          (Analyzer.standard extractor detector).component? moment.disk path := by
        rw [foundAt, isTime]
      cases fresh : pass.cache.isFresh? mode path.text modified with
      | none =>
          obtain ⟨_, version⟩ :=
            Disk.versionAt?_of_modified sound.isDirectory named isTime notDirectory
          exact absurd fresh (isFresh?_ne_none known (sound.universal version) path.text)
      | some isFresh =>
          cases isFresh with
          | true =>
              obtain ⟨slot, member, samePath, atLeast, reused⟩ :=
                Pass.reuse?_of_isFresh fresh moment.cacheClock
              obtain ⟨found, isFound, serves⟩ := serves_of_provenance sound named notDirectory
                advance (known slot member) samePath isTime atLeast
              rw [isFound]
              rw [Pass.load_of_fresh isTime fresh reused]
              exact ⟨slot.component, serves, rfl⟩
          | false =>
              rw [Pass.load_of_outdated isTime fresh, analyze_components, foundAt_eq]
              cases isFound : (Analyzer.standard extractor detector).component? moment.disk path with
              | none => rfl
              | some found =>
                  have hasPath := filePath_of_foundAt named (foundAt_eq.trans isFound)
                  exact ⟨found, serves_self named hasPath, rfl⟩

theorem mem_cacheless {analyzer : Analyzer} {paths : List Path} {component : Component} :
    component ∈ cacheless analyzer disk paths ↔
      ∃ path ∈ paths, foundAt analyzer disk path = some component := by
  simp [cacheless, List.mem_filterMap]

/-- A file that is found in one of some paths has the path that its component bears. -/
theorem foundAt_of_mem_cacheless {paths : List Path} (areNamed : ∀ path ∈ paths, path.HasNames)
    (named : path.HasNames) {component : Component}
    (member : component ∈ cacheless (Analyzer.standard extractor detector) disk paths)
    (hasPath : component.filePath = path.text) :
    path ∈ paths ∧
      foundAt (Analyzer.standard extractor detector) disk path = some component := by
  obtain ⟨other, isPath, isFound⟩ := mem_cacheless.mp member
  have otherNamed := areNamed other isPath
  have isSame : other = path := Path.eq_of_text_eq otherNamed named
    ((filePath_of_foundAt otherNamed isFound).symm.trans hasPath)
  exact ⟨isSame ▸ isPath, isSame ▸ isFound⟩

theorem cacheless_append (analyzer : Analyzer) (paths : List Path) (path : Path) :
    cacheless analyzer disk (paths ++ [path]) =
      cacheless analyzer disk paths ++
        if path ∈ paths then [] else (foundAt analyzer disk path).toList := by
  unfold cacheless
  rw [List.eraseDups_append, List.filterMap_append]
  congr 1
  split
  · rename_i isMember
    simp [List.removeAll, isMember]
  · rename_i isNew
    have once : List.removeAll [path] paths = [path] := by simp [List.removeAll, isNew]
    rw [once, List.eraseDups_cons]
    cases found : foundAt analyzer disk path <;> simp [found]

theorem pass_append (catalog : Catalog) (moment : Moment) (paths : List Path) (path : Path) :
    catalog.pass moment (paths ++ [path]) =
      Pass.load catalog.analyzer catalog.cacheMode moment (catalog.pass moment paths) path := by
  simp [pass]

theorem pass_holds {catalog : Catalog} {moment : Moment}
    (standard : catalog.analyzer = Analyzer.standard extractor detector)
    (sound : moment.disk.IsSound)
    (known : catalog.cache.Holds (Provenance extractor detector (history ++ [moment.disk])))
    {paths : List Path} (named : ∀ path ∈ paths, path.HasNames) :
    (catalog.pass moment paths).cache.Holds
      (Provenance extractor detector (history ++ [moment.disk])) := by
  refine (pass_cache catalog moment paths).holds (fun component found => ?_) known
  obtain ⟨path, member, isFound⟩ := found
  rw [standard] at isFound
  exact provenance_of_component? sound (named path member) isFound

/-- A component that serves for what is found in the next file finds its place. -/
theorem forall₂_cacheless_append {paths : List Path} (areNamed : ∀ path ∈ paths, path.HasNames)
    (named : path.HasNames) {components : List Component} {served found : Component}
    {disks : List Disk}
    (earlier : List.Forall₂ (Serves disks) components
      (cacheless (Analyzer.standard extractor detector) disk paths))
    (isFound : foundAt (Analyzer.standard extractor detector) disk path = some found)
    (serves : Serves disks served found) :
    List.Forall₂ (Serves disks) (placeComponent served components)
      (cacheless (Analyzer.standard extractor detector) disk (paths ++ [path])) := by
  have hasPath : found.filePath = path.text := filePath_of_foundAt named isFound
  have servedPath : served.filePath = path.text := serves.filePath.trans hasPath
  rw [cacheless_append, isFound]
  by_cases isMember : path ∈ paths
  · rw [if_pos isMember, List.append_nil]
    have isKnown : ∃ other ∈ cacheless (Analyzer.standard extractor detector) disk paths,
        other.filePath = served.filePath :=
      ⟨found, mem_cacheless.mpr ⟨path, isMember, isFound⟩, hasPath.trans servedPath.symm⟩
    refine forall₂_placeComponent (fun _ _ serves => serves.filePath) earlier isKnown ?_
    intro other isOther sameFile
    have isSame := (foundAt_of_mem_cacheless areNamed named isOther (sameFile.trans servedPath)).2
    rw [isFound] at isSame
    cases isSame
    exact serves
  · rw [if_neg isMember]
    have new : ∀ other ∈ components, other.filePath ≠ served.filePath := by
      intro other isOther sameFile
      obtain ⟨known, isKnown, servesKnown⟩ := exists_related earlier isOther
      have knownPath := servesKnown.filePath.symm.trans (sameFile.trans servedPath)
      exact isMember (foundAt_of_mem_cacheless areNamed named isKnown knownPath).1
    rw [placeComponent_of_new new]
    exact List.rel_append earlier (.cons serves .nil)

/-- The pass of a catalog gives components that serve for those of a pass without a
cache. -/
theorem pass_spec {catalog : Catalog} {moment : Moment}
    (standard : catalog.analyzer = Analyzer.standard extractor detector)
    (sound : moment.disk.IsSound) (advance : Disk.Advance (history ++ [moment.disk]))
    (known : catalog.cache.Holds (Provenance extractor detector (history ++ [moment.disk])))
    {paths : List Path}
    (areFiles : ∀ path ∈ paths, path.HasNames ∧ moment.disk.leadsToDirectory path = false) :
    List.Forall₂ (Serves (history ++ [moment.disk])) (catalog.pass moment paths).components
      (cacheless (Analyzer.standard extractor detector) moment.disk paths) := by
  induction paths using List.reverseRecOn with
  | nil => exact .nil
  | append_singleton paths path ih =>
      have areEarlier : ∀ other ∈ paths, other.HasNames ∧ moment.disk.leadsToDirectory other = false :=
        fun other member => areFiles other (List.mem_append_left _ member)
      have areNamed : ∀ other ∈ paths, other.HasNames :=
        fun other member => (areEarlier other member).1
      obtain ⟨named, notDirectory⟩ := areFiles path (by simp)
      have loaded := load_spec catalog.cacheMode sound named notDirectory advance
        (pass_holds standard sound known areNamed)
      rw [pass_append, standard]
      split at loaded
      · rename_i isNone
        rw [loaded, cacheless_append, isNone]
        simpa using ih areEarlier
      · rename_i found isFound
        obtain ⟨served, serves, areComponents⟩ := loaded
        rw [areComponents]
        exact forall₂_cacheless_append areNamed named (ih areEarlier) isFound serves

end Load

theorem paths_freshCache {pass : Pass} {mode : Cache.Mode} {scanned : List String} :
    ∀ file ∈ (pass.freshCache mode scanned).paths mode, file ∈ scanned := by
  intro file isCached
  unfold Pass.freshCache at isCached
  rw [Cache.Records.paths_forget] at isCached
  obtain ⟨wasCached, notStale⟩ := List.mem_filter.mp isCached
  by_contra notScanned
  have isStale : file ∈ pass.stale mode scanned :=
    List.mem_filter.mpr ⟨wasCached, by simpa using notScanned⟩
  simp [isStale] at notStale

/-!
The invariant of a run: what is cached was found in a version of its file at some step.
While caching is switched off nothing is forgotten, so the version may be long gone.
-/

section Run

variable {extractor : Props.Extractor} {detector : Option (Category.Detector Float)}
  {history : List Disk} {catalog : Catalog}

/-- The catalog can scan its project, and what it has cached was found on some disks. -/
structure Remembers (extractor : Props.Extractor) (detector : Option (Category.Detector Float))
    (disks : List Disk) (catalog : Catalog) : Prop where
  ready : catalog.IsReady
  standard : catalog.analyzer = Analyzer.standard extractor detector
  known : catalog.cache.Holds (Provenance extractor detector disks)

theorem Remembers.mono {more : List Disk} (remembers : catalog.Remembers extractor detector history)
    (isSubset : history ⊆ more) : catalog.Remembers extractor detector more :=
  { remembers with
    known := fun slot member => by
      obtain ⟨disk, isDisk, found⟩ := remembers.known slot member
      exact ⟨disk, isSubset isDisk, found⟩ }

theorem Remembers.refresh {moment : Moment} (sound : moment.disk.IsSound)
    (remembers : catalog.Remembers extractor detector (history ++ [moment.disk])) :
    (catalog.refresh moment).1.Remembers extractor detector (history ++ [moment.disk]) := by
  obtain ⟨ready, standard, known⟩ := remembers
  refine ⟨ready.congr (refresh_workspace catalog moment), ?_, ?_⟩
  · have same : catalog.WorksOn (catalog.refresh moment).1 := perform_worksOn
      ⟨.unchanged, rfl, .unchanged, rfl, rfl, rfl⟩ moment .refresh
    exact same.analyzer.trans standard
  · refine (refresh_cache catalog moment).holds (fun component isFound => ?_) known
    obtain ⟨scan, scanned, path, member, found⟩ := isFound
    rw [standard] at found
    exact provenance_of_component? sound
      (Workspace.scan_paths_spec ready.coherent.rooted sound scanned path member).1 found

theorem Remembers.designOf (remembers : catalog.Remembers extractor detector history)
    (moment : Moment) (category : Option String) (components : List Component) :
    (catalog.designOf moment category components).1.Remembers extractor detector history := by
  obtain ⟨ready, standard, known⟩ := remembers
  refine ⟨ready.congr (designOf_workspace catalog moment category components), ?_, ?_⟩ <;>
    unfold Catalog.designOf <;> dsimp only <;> split
  · exact standard
  · exact standard
  · exact known
  · exact known

theorem perform_remembers {moment : Moment} (sound : moment.disk.IsSound) {step : Step}
    (only : step.IsCacheOnly) (remembers : catalog.Remembers extractor detector history) :
    (catalog.perform moment step).Remembers extractor detector (history ++ [moment.disk]) :=
  perform_preserves (P := Remembers extractor detector (history ++ [moment.disk])) step
    (fun _ remembers => remembers.refresh sound)
    (fun _ _ remembers => { remembers with ready := remembers.ready.congr rfl })
    (fun _ category components _ remembers => remembers.designOf moment category components)
    (fun _ path remembers =>
      { remembers with
        ready := remembers.ready.congr rfl
        known := remembers.known.invalidate path })
    (fun _ remembers =>
      { remembers with
        ready := remembers.ready.congr rfl
        known := remembers.known.invalidateAll })
    (fun _ updates isConfigure remembers =>
      { remembers with ready := remembers.ready.configure (by subst isConfigure; exact only) })
    (remembers.mono (List.subset_append_left _ _))

theorem run_remembers {steps : List (Moment × Step)}
    (sound : ∀ step ∈ steps, step.1.disk.IsSound) (only : ∀ step ∈ steps, step.2.IsCacheOnly)
    (remembers : catalog.Remembers extractor detector history) :
    (catalog.run steps).Remembers extractor detector
      (history ++ steps.map fun step => step.1.disk) := by
  induction steps generalizing catalog history with
  | nil =>
      rw [List.map_nil, List.append_nil]
      exact remembers
  | cons step rest ih =>
      have next := perform_remembers (sound step (by simp)) (only step (by simp)) remembers
      rw [List.map_cons, List.append_cons]
      exact ih (fun other member => sound other (List.mem_cons_of_mem _ member))
        (fun other member => only other (List.mem_cons_of_mem _ member)) next

/-- After every run from an empty cache, a refresh gives the components of a pass without
a cache, but for times: a file that was set back to an earlier time, with its content as
it was, may keep the later time in its component.  When no file ever was, the components
are the same.  Only where the machine does not tell of a scanned directory whether it is
there does the refresh fail, as does a pass without a cache. -/
theorem refresh_transparent (ready : catalog.IsReady)
    (standard : catalog.analyzer = Analyzer.standard extractor detector)
    (empty : catalog.cache.slots = []) {steps : List (Moment × Step)}
    (only : ∀ step ∈ steps, step.2.IsCacheOnly) (moment : Moment)
    (sound : ∀ disk ∈ steps.map (fun step => step.1.disk) ++ [moment.disk], disk.IsSound)
    (advance : Disk.Advance (steps.map (fun step => step.1.disk) ++ [moment.disk])) :
    (∃ fault events, (catalog.run steps).workspace.IsRefused moment.disk fault ∧
      (catalog.run steps).refresh moment =
        ((catalog.run steps).observe events, .error fault)) ∨
    ∃ scan after components,
      (catalog.run steps).workspace.scan moment.disk = .ok scan ∧
      (catalog.run steps).refresh moment = (after, .ok components) ∧
      List.Forall₂ (Serves (steps.map (fun step => step.1.disk) ++ [moment.disk])) components
        (cacheless catalog.analyzer moment.disk scan.paths) ∧
      ((∀ path, Disk.NeverTurnBack (steps.map (fun step => step.1.disk) ++ [moment.disk]) path) →
        components = cacheless catalog.analyzer moment.disk scan.paths) ∧
      ∀ file ∈ after.cache.paths after.cacheMode, file ∈ scan.paths.map Path.text := by
  have remembersNone : catalog.Remembers extractor detector [] :=
    ⟨ready, standard, fun slot member => by simp [empty] at member⟩
  have remembers := run_remembers (fun step member => sound step.1.disk (by
    simp only [List.mem_append, List.mem_map]
    exact .inl ⟨step, member, rfl⟩)) only remembersNone
  rw [List.nil_append] at remembers
  have now := remembers.mono (List.subset_append_left _ [moment.disk])
  have soundNow := sound moment.disk (by simp)
  rcases now.ready.refresh_cases moment with refused | ⟨scan, scanned, refreshed⟩
  case inl => exact .inl refused
  right
  have serve := pass_spec now.standard soundNow advance now.known
    (Workspace.scan_paths_spec now.ready.coherent.rooted soundNow scanned)
  rw [← standard] at serve
  refine ⟨scan, _, _, scanned, refreshed, serve, fun steady => ?_, paths_freshCache⟩
  refine List.forall₂_eq_eq_eq ▸ serve.imp fun component other serves => ?_
  obtain ⟨_, path, _, _, isSame⟩ := serves
  exact isSame (steady path)

end Run

/-!
A file that is set back to an earlier time, with its content as it was, is served from the
cache with its later time.
-/

section OneFile

variable {catalog : Catalog} {moment : Moment} {scan : Scan} {path : Path}
  {modified : Timestamp}

theorem refresh_cacheMode (catalog : Catalog) (moment : Moment) :
    (catalog.refresh moment).1.cacheMode = catalog.cacheMode := by
  rcases refresh_cases catalog moment with ⟨scan, -, refreshed⟩ | ⟨fault, events, -, refreshed⟩ <;>
    rw [refreshed] <;> rfl

/-- A file that is read while the cache is empty is in the cache then. -/
theorem refresh_slots (scanned : catalog.workspace.scan moment.disk = .ok scan)
    (onlyOne : scan.paths = [path]) (isTime : moment.disk.modified path = .ok modified)
    (enabled : catalog.cacheMode.enabled) (empty : catalog.cache.slots = [])
    (fits : 1 ≤ catalog.cache.limit catalog.cacheMode) {component : Component}
    (found : catalog.analyzer.component? moment.disk path = some component)
    (hasPath : component.filePath = path.text) :
    ∃ slot : Cache.Slot Float, slot.component = component ∧
      (catalog.refresh moment).1.cache.slots = [slot] := by
  have isNew : catalog.cache.isFresh? catalog.cacheMode path.text modified = some false := by
    simp [Cache.Records.isFresh?, enabled, Cache.Records.find?, empty]
  have loaded : (catalog.pass moment [path]).cache =
      (catalog.cache.put catalog.cacheMode moment.cacheClock component).1 := by
    unfold Analyzer.component? at found
    cases analyzed : catalog.analyzer.analyze moment.disk path with
    | error fault => simp [analyzed] at found
    | ok analysis =>
        simp only [analyzed] at found
        simp [pass, Pass.load, isTime, isNew, Pass.analyze, analyzed, found, Pass.observe, Pass.keep]
  have slots := Cache.Records.put_slots_of_empty enabled empty fits moment.cacheClock component
  have noneStale : (catalog.pass moment [path]).stale catalog.cacheMode [path.text] = [] := by
    simp [Pass.stale, Cache.Records.paths, Cache.Records.visible, enabled, loaded, slots,
      Cache.Slot.path, hasPath]
  rw [refresh_of_scan scanned]
  refine ⟨{ component, uses := 1, lastUse := moment.cacheClock, tick := catalog.cache.nextTick },
    rfl, ?_⟩
  rw [← slots, ← loaded]
  simp [refreshFrom, onlyOne, Pass.freshCache, noneStale]

/-- A file that is no newer than its cached component is served from the cache. -/
theorem refresh_served (scanned : catalog.workspace.scan moment.disk = .ok scan)
    (onlyOne : scan.paths = [path]) (isTime : moment.disk.modified path = .ok modified)
    (enabled : catalog.cacheMode.enabled) {slot : Cache.Slot Float}
    (slots : catalog.cache.slots = [slot]) (hasPath : slot.component.filePath = path.text)
    (notNewer : slot.component.lastModified.atLeast? modified = some true) :
    (catalog.refresh moment).2 = .ok [slot.component] := by
  have fresh : ({ cache := catalog.cache } : Pass).cache.isFresh? catalog.cacheMode path.text
      modified = some true := by
    simp [Cache.Records.isFresh?, enabled, Cache.Records.find?, slots, Cache.Slot.path, hasPath,
      notNewer]
  obtain ⟨used, isUsed, _, _, reused⟩ := Pass.reuse?_of_isFresh fresh moment.cacheClock
  obtain rfl : used = slot := by simpa [slots] using isUsed
  rw [refresh_of_scan scanned]
  simp [refreshFrom, onlyOne, pass, Pass.load, isTime, fresh, reused, placeComponent]

end OneFile

/-- The directory that is scanned. -/
def oneRoot : Path := { slashes := 1, parts := [['p'], ['s']] }

/-- The file in it. -/
def onePath : Path := { slashes := 1, parts := [['p'], ['s'], "AComponent.tsx".toList] }

/-- A disk that holds one file, which is empty. -/
def oneFile (micros : Int) : Disk :=
  { root := .directory true [(['p'], .directory true [(['s'], .directory true
      [("AComponent.tsx".toList, .file [] { wall := micros, offset := some 0 })])])] }

/-- A moment at which the disk is so. -/
def oneMoment (micros : Int) : Moment :=
  { disk := oneFile micros, clock := 0, now := { wall := 0, offset := some 0 } }

theorem entryAt_onePath (micros : Int) :
    (oneFile micros).entryAt onePath = .ok (.file [] { wall := micros, offset := some 0 }) :=
  Disk.entryAt_of_at? (by decide) (by decide) rfl rfl rfl

theorem entryAt_oneRoot (micros : Int) :
    (oneFile micros).entryAt oneRoot = .ok (.directory true
      [("AComponent.tsx".toList, .file [] { wall := micros, offset := some 0 })]) :=
  Disk.entryAt_of_at? (by decide) (by decide) rfl rfl rfl

/-- Files that stand in their order in the scanned directory are met in this order. -/
theorem scan_oneRoot {workspace : Workspace} (isRoots : workspace.scanRoots = .ok [oneRoot])
    {disk : Disk} {entries : List (List Char × Entry)}
    (there : disk.entryAt oneRoot = .ok (.directory true entries))
    (distinct : (entries.map (·.1)).Nodup)
    (ordered : entries.Pairwise fun first second => Disk.isOrdered first.1 second.1)
    (areFiles : ∀ found ∈ entries, found.2.isDirectory = false ∧
      disk.leadsToDirectory (oneRoot.child found.1) = false ∧
      workspace.holdsComponent [oneRoot] (oneRoot.child found.1)) :
    ∃ scan, workspace.scan disk = .ok scan ∧
      scan.paths = entries.map fun found => oneRoot.child found.1 := by
  have rootTold : disk.isDirectory oneRoot = .ok true := by
    have named : oneRoot.HasNames := by unfold Path.HasNames; decide
    rw [Disk.isDirectory_eq named, there]
    rfl
  have rootThere := Disk.leadsToDirectory_of_isDirectory rootTold
  have listed : disk.listingProblem? oneRoot = none := by
    rw [Disk.listingProblem?, there]
    rfl
  have inOrder : Disk.byName entries = entries := List.mergeSort_of_pairwise ordered
  have areMet : (entries.filter fun found => !disk.isFolder oneRoot found &&
      workspace.includes [oneRoot] (oneRoot.child found.1)) = entries := by
    refine List.filter_eq_self.mpr fun found member => ?_
    obtain ⟨isFile, notDirectory, isComponent⟩ := areFiles found member
    simp only [Workspace.holdsComponent, Bool.and_eq_true] at isComponent
    simp [Disk.isFolder, isFile, notDirectory, isComponent.1.1]
  have noneEntered : (entries.filter fun found => found.2.isDirectory &&
      workspace.includes [oneRoot] (oneRoot.child found.1)) = [] :=
    List.filter_eq_nil_iff.mpr fun found member => by simp [(areFiles found member).1]
  have walked : disk.walk (workspace.includes [oneRoot]) oneRoot =
      entries.map fun found => .file (oneRoot.child found.1) := by
    rw [Disk.walk, there]
    dsimp only
    rw [Disk.walkEntry_of_listed _ listed distinct, inOrder, areMet, noneEntered]
    simp
  have areComponents : (entries.map fun found => oneRoot.child found.1).filter
      (workspace.holdsComponent [oneRoot]) =
        entries.map fun found => oneRoot.child found.1 := by
    refine List.filter_eq_self.mpr fun path member => ?_
    obtain ⟨found, isEntry, rfl⟩ := List.mem_map.mp member
    exact (areFiles found isEntry).2.2
  have scanned : workspace.scan disk =
      .ok (Scan.ofRoots workspace disk [oneRoot]) :=
    Workspace.scan_of_tells isRoots (List.forall_mem_singleton.mpr ⟨true, rootTold⟩)
  refine ⟨_, scanned, ?_⟩
  have met : Scan.candidates workspace disk [oneRoot] =
      entries.map fun found => oneRoot.child found.1 := by
    simp [Scan.candidates, Scan.sightings, rootThere, walked, List.filterMap_map,
      Function.comp_def, Scan.fileOf?]
  rw [Scan.ofRoots, met]
  exact areComponents

theorem scanRoots_plainWorkspace : plainWorkspace.scanRoots = .ok [oneRoot] := by rfl

theorem scan_oneFile (micros : Int) :
    ∃ scan, newCatalog.workspace.scan (oneFile micros) = .ok scan ∧ scan.paths = [onePath] := by
  have named : onePath.HasNames := by unfold Path.HasNames; decide
  have notDirectory : (oneFile micros).leadsToDirectory onePath = false :=
    Disk.not_leadsToDirectory_of_entryAt named (entryAt_onePath micros) (by rintro _ ⟨⟩; rfl)
  have isComponent : plainWorkspace.holdsComponent [oneRoot] onePath := by decide +kernel
  exact scan_oneRoot scanRoots_plainWorkspace (entryAt_oneRoot micros) (List.nodup_singleton _)
    (List.pairwise_singleton _ _) (List.forall_mem_singleton.mpr ⟨rfl, notDirectory, isComponent⟩)

theorem modified_oneFile {micros : Int}
    (isDate : Timestamp.isDate { wall := micros, offset := some 0 }) :
    (oneFile micros).modified onePath = .ok { wall := micros, offset := some 0 } :=
  (Disk.modified_of_entryAt (entryAt_onePath micros)).trans
    (Disk.dated_eq_ok_iff.mpr ⟨isDate, rfl⟩)

theorem component?_oneFile {micros : Int}
    (isDate : Timestamp.isDate { wall := micros, offset := some 0 }) :
    ∃ component, newCatalog.analyzer.component? (oneFile micros) onePath = some component ∧
      component.filePath = onePath.text ∧
      component.lastModified = { wall := micros, offset := some 0 } := by
  have version : (oneFile micros).versionAt? onePath =
      some (some [], { wall := micros, offset := some 0 }) := by
    rw [Disk.versionAt?, entryAt_onePath]
    rfl
  have named : onePath.HasNames := by unfold Path.HasNames; decide
  have found : newCatalog.analyzer.component? (oneFile micros) onePath =
      Analysis.componentOf Props.bySource none onePath (some [])
        { wall := micros, offset := some 0 } :=
    Analyzer.component?_standard named isDate version
  obtain ⟨component, isComponent⟩ : ∃ component,
      Analysis.componentOf Props.bySource none onePath (some [])
        { wall := micros, offset := some 0 } = some component := ⟨_, rfl⟩
  exact ⟨component, found.trans isComponent, Analysis.componentOf_spec isComponent⟩

/-- What stands in a directory of one name. -/
theorem at?_of_one {access : Access} {name : List Char} {below entry : Entry}
    {way : List (List Char)}
    (found : (Entry.directory access [(name, below)]).at? way = some entry) :
    entry.isDirectory ∨ ∃ rest, below.at? rest = some entry := by
  cases way with
  | nil =>
      cases found
      exact .inl rfl
  | cons first rest =>
      obtain ⟨next, child, later⟩ := Option.bind_eq_some_iff.mp found
      have isBelow := Entry.mem_of_child? child
      simp only [Entry.entries, List.mem_singleton, Prod.mk.injEq] at isBelow
      exact .inr ⟨rest, isBelow.2 ▸ later⟩

/-- The only version of a file is that of the file. -/
theorem versionAt?_oneFile {micros : Int} {path : Path} {content : Option (List UInt8)}
    {modified : Timestamp} (version : (oneFile micros).versionAt? path = some (content, modified)) :
    content = some [] ∧ modified = { wall := micros, offset := some 0 } := by
  unfold Disk.versionAt? at version
  split at version
  · rename_i entry found
    obtain ⟨way, _, atWay⟩ := Disk.exists_at?_of_entryAt found
    have notDirectory : ¬ entry.isDirectory := by
      cases entry <;> simp [Entry.version?, Entry.isDirectory] at version ⊢
    obtain ⟨rest, atFirst⟩ := (at?_of_one atWay).resolve_left notDirectory
    obtain ⟨rest, atSecond⟩ := (at?_of_one atFirst).resolve_left notDirectory
    obtain ⟨rest, atFile⟩ := (at?_of_one atSecond).resolve_left notDirectory
    cases rest with
    | nil =>
        cases atFile
        cases version
        exact ⟨rfl, rfl⟩
    | cons name rest => cases atFile
  · cases version

theorem isSound_oneFile (micros : Int) : (oneFile micros).IsSound where
  isDirectory := rfl
  proper := by
    have isNamed (name : List Char) (below : Entry) (allowed : Path.IsName name) :
        ∀ found ∈ [(name, below)], Path.IsName found.1 := List.forall_mem_singleton.mpr allowed
    refine .directory _ _ (by simp) (isNamed _ _ (by decide)) ?_
    refine List.forall_mem_singleton.mpr (.directory _ _ (by simp) (isNamed _ _ (by decide)) ?_)
    refine List.forall_mem_singleton.mpr (.directory _ _ (by simp) (isNamed _ _ (by decide)) ?_)
    exact List.forall_mem_singleton.mpr (.file _ _)
  universal version := by
    rw [(versionAt?_oneFile version).2]

theorem advance_oneFile (micros : List Int) : Disk.Advance (micros.map oneFile) := by
  refine List.pairwise_map.mpr (List.pairwise_of_forall fun earlier later => ?_)
  intro path before after was becomes old new differ
  exact absurd ((versionAt?_oneFile old).1.trans (versionAt?_oneFile new).1.symm) differ

theorem neverTurnBack_oneFile {micros : List Int} (steady : micros.Pairwise (· ≤ ·)) (path : Path) :
    Disk.NeverTurnBack (micros.map oneFile) path := by
  refine List.pairwise_map.mpr (steady.imp fun isLater => ?_)
  intro content was becomes old new
  rw [(versionAt?_oneFile old).2, (versionAt?_oneFile new).2]
  exact isLater

theorem refresh_after_refresh : ∃ scan after components,
    (newCatalog.run [(oneMoment 0, .refresh)]).workspace.scan (oneFile 1) = .ok scan ∧
      (newCatalog.run [(oneMoment 0, .refresh)]).refresh (oneMoment 1) = (after, .ok components) ∧
      components = cacheless newCatalog.analyzer (oneFile 1) scan.paths ∧
      ∀ file ∈ after.cache.paths after.cacheMode, file ∈ scan.paths.map Path.text := by
  have only : ∀ step ∈ [(oneMoment 0, Step.refresh)], step.2.IsCacheOnly :=
    List.forall_mem_singleton.mpr trivial
  have sound : ∀ disk ∈ [oneFile 0, oneFile 1], disk.IsSound := by
    simp [isSound_oneFile]
  have ready : newCatalog.IsReady := isReady_of_plainWorkspace rfl
  have standard : newCatalog.analyzer = Analyzer.standard Props.bySource none := rfl
  have empty : newCatalog.cache.slots = [] := rfl
  have isPlain : (newCatalog.run [(oneMoment 0, .refresh)]).workspace = newCatalog.workspace :=
    refresh_workspace newCatalog (oneMoment 0)
  rcases refresh_transparent ready standard empty only (oneMoment 1) sound
      (advance_oneFile [0, 1]) with
    ⟨fault, events, refused, -⟩ |
      ⟨scan, after, components, scanned, refreshed, -, agrees, forgets⟩
  · obtain ⟨scan, scanned, -⟩ := scan_oneFile 1
    rw [isPlain] at refused
    cases (Workspace.scan_of_isRefused refused).symm.trans scanned
  · have steady : [(0 : Int), 1].Pairwise (· ≤ ·) := by decide
    exact ⟨scan, after, components, scanned, refreshed, agrees (neverTurnBack_oneFile steady),
      forgets⟩

theorem refresh_keeps_later_time :
    (newCatalog.IsReady ∧ newCatalog.cache.slots = [] ∧
      (∀ disk ∈ [oneFile 1, oneFile 0], disk.IsSound) ∧ Disk.Advance [oneFile 1, oneFile 0]) ∧
    ∃ scan components,
      (newCatalog.run [(oneMoment 1, .refresh)]).workspace.scan (oneFile 0) = .ok scan ∧
      ((newCatalog.run [(oneMoment 1, .refresh)]).refresh (oneMoment 0)).2 = .ok components ∧
      components ≠ cacheless newCatalog.analyzer (oneFile 0) scan.paths := by
  refine ⟨⟨isReady_of_plainWorkspace rfl, rfl, by simp [isSound_oneFile],
    advance_oneFile [1, 0]⟩, ?_⟩
  obtain ⟨firstScan, firstScanned, firstPaths⟩ := scan_oneFile 1
  obtain ⟨scan, scanned, paths⟩ := scan_oneFile 0
  obtain ⟨first, firstFound, hasPath, firstTime⟩ := @component?_oneFile 1 (by decide)
  obtain ⟨second, secondFound, _, secondTime⟩ := @component?_oneFile 0 (by decide)
  have enabled : newCatalog.cacheMode.enabled := by decide
  have fits : 1 ≤ newCatalog.cache.limit newCatalog.cacheMode := by decide
  obtain ⟨slot, rfl, slots⟩ := @refresh_slots newCatalog (oneMoment 1) _ _ _ firstScanned firstPaths
    (@modified_oneFile 1 (by decide)) enabled rfl fits _ firstFound hasPath
  rw [← refresh_workspace newCatalog (oneMoment 1)] at scanned
  rw [← refresh_cacheMode newCatalog (oneMoment 1)] at enabled
  have notNewer : slot.component.lastModified.atLeast? { wall := 0, offset := some 0 } =
      some true := by
    rw [firstTime]
    decide
  have served := @refresh_served _ (oneMoment 0) _ _ _ scanned paths (@modified_oneFile 0 (by decide)) enabled _
    slots hasPath notNewer
  have found : foundAt newCatalog.analyzer (oneFile 0) onePath = some second := by
    rw [foundAt, @modified_oneFile 0 (by decide)]
    exact secondFound
  refine ⟨scan, [slot.component], scanned, served, fun same => ?_⟩
  rw [paths, cacheless, List.eraseDups_cons, List.filterMap_cons_some found] at same
  have sameTime : slot.component.lastModified = second.lastModified :=
    congrArg Component.lastModified (List.head_eq_of_cons_eq same)
  rw [firstTime, secondTime] at sameTime
  cases sameTime

end Catalog

end ComponentAtlas
