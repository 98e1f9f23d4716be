/-
Module: ComponentAtlas.Proofs.Catalog.Isolation
Purpose: What a failure does to a refresh: a scan that fails leaves what happened on its
  way, and a file that fails leaves a report, and nothing else.
Main exports:
  Props.Extractor.IsTotal, Lookup.report?, Pass.SameYield, Pass.load_of_report,
  Pass.load_of_no_report, Pass.run_sameYield, refresh_isolates
-/
import Mathlib.Data.List.Permutation
import ComponentAtlas.Proofs.Catalog.Accounting
import ComponentAtlas.Proofs.Catalog.Transparency

namespace ComponentAtlas

/-!
An analysis goes wrong only with reading the file, as long as the extractor of props gives
an answer for every text.
-/

/-- An extractor that never fails. -/
def Props.Extractor.IsTotal (extractor : Props.Extractor) : Prop :=
  ∀ source fileName, ∃ props, extractor.extract source fileName = .ok props

theorem Props.bySource_isTotal : Props.bySource.IsTotal := fun source _ =>
  ⟨Props.sourceProps source.toList, rfl⟩

theorem Props.Extractor.IsTotal.withFallback {second : Props.Extractor} (total : second.IsTotal)
    (first : Props.Extractor) : (first.withFallback second).IsTotal := by
  intro source fileName
  unfold Props.Extractor.withFallback
  dsimp only
  split
  · exact ⟨_, rfl⟩
  · exact total source fileName

namespace Analysis

variable {extractor : Props.Extractor} {detector : Option (Category.Detector Float)}
  {disk other : Disk} {path : Path}

/-- A text always gives a component. -/
theorem ofSource_spec (total : extractor.IsTotal) (detector : Option (Category.Detector Float))
    (path : Path) (source : String) (modified : Timestamp) :
    ∃ component, component.filePath = path.text ∧
      ofSource extractor detector path source modified =
        { component := some component, events := [] } := by
  obtain ⟨props, isProps⟩ := total source (String.ofList path.name)
  unfold ofSource
  rw [isProps]
  exact ⟨_, rfl, rfl⟩

/-- An analysis depends on nothing but the text of the file and its time. -/
theorem analyze_congr (sameSource : readSource other path = readSource disk path) :
    (Analyzer.standard extractor detector).analyze other path =
      (Analyzer.standard extractor detector).analyze disk path := by
  simp only [Analyzer.standard, ofFile, sameSource]

end Analysis

/-- The report that an event leaves. -/
def Event.report? : Event → Option Report
  | .note _ => none
  | .incident met => some met.report

/-- Events are kept by their reports. -/
theorem Ledger.takeAll_eq (events : List Event) (ledger : Ledger) :
    ledger.takeAll events = (events.filterMap Event.report?).foldl keep ledger := by
  induction events generalizing ledger with
  | nil => rfl
  | cons event rest ih =>
      cases event with
      | note record => exact ih ledger
      | incident met => exact ih (ledger.keep met.report)

theorem Ledger.takeAll_append (ledger : Ledger) (first second : List Event) :
    ledger.takeAll (first ++ second) = (ledger.takeAll first).takeAll second :=
  List.foldl_append

/-- What is logged leaves no report. -/
theorem report?_notes (records : List Journal.Record) :
    (records.map Event.note).filterMap Event.report? = [] := by
  induction records with
  | nil => rfl
  | cons record rest ih => exact ih

namespace Catalog

/-- The report that loading a file leaves, if that fails: its time cannot be read, is no date
or cannot be compared, or no component of it is served and the file cannot be read. -/
def Lookup.report? (disk : Disk) (path : Path) : Lookup → Option Report
  | .untimed fault =>
    if fault.kind.isDisk then some (Ledger.reportOf fault "stat_component" (some path.text) .low)
    else some (Ledger.reportOf fault "analyze_component" (some path.text) .medium)
  | .incomparable =>
    some (Ledger.reportOf .incomparableTimes "analyze_component" (some path.text) .medium)
  | .missing | .outdated =>
    match readSource disk path with
    | .ok _ => none
    | .error fault =>
      some (Ledger.reportOf fault
        (if fault.isUnreadable then "read_component" else "analyze_component") (some path.text)
        .medium)
  | .served _ => none

theorem mem_files_placeComponent {component : Component} {components : List Component}
    {file : String} :
    file ∈ (placeComponent component components).map Component.filePath ↔
      file ∈ components.map Component.filePath ∨ component.filePath = file := by
  induction components with
  | nil => simp [placeComponent, eq_comm]
  | cons first rest ih =>
      unfold placeComponent
      split
      · rename_i same
        simp only [List.map_cons, List.mem_cons, same]
        tauto
      · simp only [List.map_cons, List.mem_cons, ih]
        tauto

namespace Pass

variable {extractor : Props.Extractor} {detector : Option (Category.Detector Float)}
  {mode : Cache.Mode} {moment otherMoment : Moment} {pass other : Pass} {path : Path}

/-- Two passes have come to the same components and to the same cache. -/
structure SameYield (pass other : Pass) : Prop where
  cache : other.cache = pass.cache
  components : other.components = pass.components

theorem SameYield.refl (pass : Pass) : pass.SameYield pass := ⟨rfl, rfl⟩

theorem SameYield.symm (same : pass.SameYield other) : other.SameYield pass :=
  ⟨same.cache.symm, same.components.symm⟩

theorem SameYield.trans {third : Pass} (same : pass.SameYield other)
    (also : other.SameYield third) : pass.SameYield third :=
  ⟨also.cache.trans same.cache, also.components.trans same.components⟩

theorem analyze_of_unread {fault : Fault} (unread : readSource moment.disk path = .error fault) :
    ∃ event, event.report? = some (Ledger.reportOf fault
        (if fault.isUnreadable then "read_component" else "analyze_component") (some path.text)
        .medium) ∧
      pass.analyze (.standard extractor detector) mode moment path = pass.observe [event] := by
  by_cases isUnreadable : fault.isUnreadable
  · refine ⟨Analysis.unreadable path fault, by rw [if_pos isUnreadable]; rfl, ?_⟩
    simp only [analyze, Analyzer.standard, Analysis.ofFile, unread, isUnreadable, if_true]
  · refine ⟨analysisFailed path fault, by rw [if_neg isUnreadable]; rfl, ?_⟩
    simp only [analyze, Analyzer.standard, Analysis.ofFile, unread, isUnreadable,
      Bool.false_eq_true, if_false]

/-- Loading a file that fails leaves one report and changes nothing else. -/
theorem load_of_report (extractor : Props.Extractor)
    (detector : Option (Category.Detector Float)) {report : Report}
    (fails : (pass.lookup mode moment.disk path).report? moment.disk path = some report) :
    ∃ event, event.report? = some report ∧
      load (.standard extractor detector) mode moment pass path = pass.observe [event] := by
  rw [load_eq]
  cases met : pass.lookup mode moment.disk path with
  | untimed fault =>
      rw [met, Lookup.report?] at fails
      dsimp only
      by_cases isDisk : fault.kind.isDisk
      · rw [if_pos isDisk] at fails
        rw [Pass.untimed, if_pos isDisk]
        exact ⟨statFailed path fault, fails, rfl⟩
      · rw [if_neg isDisk] at fails
        rw [Pass.untimed, if_neg isDisk]
        exact ⟨analysisFailed path fault, fails, rfl⟩
  | incomparable =>
      rw [met] at fails
      exact ⟨analysisFailed path .incomparableTimes, fails, rfl⟩
  | served component =>
      rw [met] at fails
      cases fails
  | _ =>
      simp only [met, Lookup.report?] at fails
      split at fails
      · cases fails
      · rename_i fault unread
        cases fails
        exact analyze_of_unread unread

/-- Loading a file that does not fail leaves a component of it and no report. -/
theorem load_of_no_report (total : extractor.IsTotal)
    (detector : Option (Category.Detector Float))
    (fine : (pass.lookup mode moment.disk path).report? moment.disk path = none) :
    ∃ component, ∃ records : List Journal.Record, component.filePath = path.text ∧
      (load (.standard extractor detector) mode moment pass path).components =
        placeComponent component pass.components ∧
      (load (.standard extractor detector) mode moment pass path).events =
        pass.events ++ records.map Event.note := by
  rw [load_eq]
  cases met : pass.lookup mode moment.disk path with
  | untimed fault =>
      rw [met, Lookup.report?] at fine
      split at fine <;> cases fine
  | incomparable => simp [met, Lookup.report?] at fine
  | served component =>
      obtain ⟨_, slot, found, rfl⟩ := exists_slot_of_served met
      exact ⟨slot.component, [], (Cache.Records.find?_spec found).2, rfl, by simp [serve]⟩
  | _ =>
      simp only [met, Lookup.report?] at fine
      split at fine
      · rename_i answer read
        obtain ⟨source, modified⟩ := answer
        obtain ⟨component, hasPath, isComponent⟩ :=
          Analysis.ofSource_spec total detector path source modified
        refine ⟨component, (pass.cache.put mode moment.cacheClock component).2, hasPath, ?_, ?_⟩ <;>
          simp only [analyze, Analyzer.standard, Analysis.ofFile, read, isComponent, keep, observe,
            List.append_nil]
      · cases fine

/-- A pass meets the same at two moments when the time of the file is the same. -/
theorem lookup_congr (same : pass.SameYield other)
    (sameTime : otherMoment.disk.modified path = moment.disk.modified path) :
    other.lookup mode otherMoment.disk path = pass.lookup mode moment.disk path := by
  unfold lookup cached?
  rw [sameTime, same.cache]

/-- A file that is found the same is loaded the same. -/
theorem SameYield.load (same : pass.SameYield other)
    (sameClock : otherMoment.cacheClock = moment.cacheClock)
    (sameTime : otherMoment.disk.modified path = moment.disk.modified path)
    (sameSource : readSource otherMoment.disk path = readSource moment.disk path) :
    (load (.standard extractor detector) mode moment pass path).SameYield
      (load (.standard extractor detector) mode otherMoment other path) := by
  have sameAnalysis : (pass.analyze (.standard extractor detector) mode moment path).SameYield
      (other.analyze (.standard extractor detector) mode otherMoment path) := by
    unfold analyze
    rw [Analysis.analyze_congr sameSource]
    split
    · exact ⟨same.cache, same.components⟩
    · split
      · simp only [keep, observe, same.cache, same.components, sameClock]
        exact ⟨rfl, rfl⟩
      · exact ⟨same.cache, same.components⟩
  rw [load_eq, load_eq, lookup_congr same sameTime]
  cases pass.lookup mode moment.disk path with
  | untimed fault => exact ⟨same.cache, same.components⟩
  | incomparable => exact ⟨same.cache, same.components⟩
  | missing => exact sameAnalysis
  | outdated => exact sameAnalysis
  | served component =>
      simp only [serve, same.cache, same.components, sameClock]
      exact ⟨rfl, rfl⟩

/-- What passes meet is told by what they have come to. -/
theorem lookups_congr (same : pass.SameYield other) (paths : List Path) :
    lookups (.standard extractor detector) mode moment other paths =
      lookups (.standard extractor detector) mode moment pass paths := by
  induction paths generalizing pass other with
  | nil => rfl
  | cons path rest ih =>
      rw [lookups, lookups, lookup_congr same rfl, ih (same.load rfl rfl rfl)]

theorem SameYield.foldl (same : pass.SameYield other) (paths : List Path) :
    (paths.foldl (Pass.load (.standard extractor detector) mode moment) pass).SameYield
      (paths.foldl (Pass.load (.standard extractor detector) mode moment) other) := by
  induction paths generalizing pass other with
  | nil => exact same
  | cons path rest ih => exact ih (same.load rfl rfl rfl)

/-- After a load that failed, a pass has come to nothing more. -/
theorem sameYield_of_report (extractor : Props.Extractor)
    (detector : Option (Category.Detector Float)) {report : Report}
    (fails : (pass.lookup mode moment.disk path).report? moment.disk path = some report) :
    pass.SameYield (load (.standard extractor detector) mode moment pass path) := by
  obtain ⟨event, _, failed⟩ := load_of_report extractor detector fails
  rw [failed]
  exact ⟨rfl, rfl⟩

/-!
A run over files is followed load by load: a load that fails can be left out, and the
others go on from the same cache and the same components.
-/

variable {paths : List Path}

theorem map_fst_lookups (analyzer : Analyzer) (mode : Cache.Mode) (moment : Moment) (pass : Pass)
    (paths : List Path) : (lookups analyzer mode moment pass paths).map Prod.fst = paths := by
  induction paths generalizing pass with
  | nil => rfl
  | cons path rest ih => rw [lookups, List.map_cons, ih]

/-- The report that a load leaves, if it fails. -/
def reportOf? (disk : Disk) (load : Path × Lookup) : Option Report := load.2.report? disk load.1

/-- The files whose loads leave no report. -/
def loaded (disk : Disk) (loads : List (Path × Lookup)) : List Path :=
  (loads.filter fun load => (reportOf? disk load).isNone).map Prod.fst

/-- Without the files that fail, the others come to the same components. -/
theorem run_sameYield (same : pass.SameYield other)
    (sameClock : otherMoment.cacheClock = moment.cacheClock) :
    let files := loaded moment.disk (lookups (.standard extractor detector) mode moment pass paths)
    (∀ file ∈ files, otherMoment.disk.modified file = moment.disk.modified file ∧
      readSource otherMoment.disk file = readSource moment.disk file) →
    (paths.foldl (load (.standard extractor detector) mode moment) pass).SameYield
      (files.foldl (load (.standard extractor detector) mode otherMoment) other) := by
  induction paths generalizing pass other with
  | nil => exact fun _ => same
  | cons path rest ih =>
      dsimp only
      rw [lookups, loaded, List.filter_cons]
      cases fails : reportOf? moment.disk (path, pass.lookup mode moment.disk path) with
      | some report =>
          exact ih ((sameYield_of_report extractor detector fails).symm.trans same)
      | none =>
          intro found
          obtain ⟨sameTime, sameSource⟩ := found path (by simp)
          refine ih (same.load sameClock sameTime sameSource) fun file member => ?_
          exact found file (List.mem_cons_of_mem _ member)

/-- The reports of a run are those of its loads, in their order. -/
theorem reports_run (total : extractor.IsTotal) (detector : Option (Category.Detector Float))
    (mode : Cache.Mode) (moment : Moment) (pass : Pass) (paths : List Path) :
    (paths.foldl (load (.standard extractor detector) mode moment) pass).events.filterMap
        Event.report? =
      pass.events.filterMap Event.report? ++
        (lookups (.standard extractor detector) mode moment pass paths).filterMap
          (reportOf? moment.disk) := by
  induction paths generalizing pass with
  | nil => simp [lookups]
  | cons path rest ih =>
      rw [List.foldl_cons, ih, lookups, List.filterMap_cons]
      cases fails : reportOf? moment.disk (path, pass.lookup mode moment.disk path) with
      | some report =>
          obtain ⟨event, isReport, failed⟩ := load_of_report extractor detector fails
          rw [failed]
          simp [observe, isReport]
      | none =>
          obtain ⟨component, records, _, _, areEvents⟩ := load_of_no_report total detector fails
          rw [areEvents, List.filterMap_append, report?_notes, List.append_nil]

/-- The files with a component are those that were loaded without a failure. -/
theorem mem_files_run (total : extractor.IsTotal) {file : String} :
    file ∈ (paths.foldl (load (.standard extractor detector) mode moment) pass).components.map
        Component.filePath ↔
      file ∈ pass.components.map Component.filePath ∨
        file ∈ (loaded moment.disk
          (lookups (.standard extractor detector) mode moment pass paths)).map Path.text := by
  induction paths generalizing pass with
  | nil => simp [lookups, loaded]
  | cons path rest ih =>
      rw [List.foldl_cons, ih, lookups, loaded, loaded, List.filter_cons]
      cases fails : reportOf? moment.disk (path, pass.lookup mode moment.disk path) with
      | some report =>
          obtain ⟨event, _, failed⟩ := load_of_report extractor detector fails
          rw [failed]
          rfl
      | none =>
          obtain ⟨component, _, hasPath, areComponents, _⟩ := load_of_no_report total detector fails
          rw [areComponents, mem_files_placeComponent, hasPath]
          simp only [Option.isNone_none, if_true, List.map_cons, List.mem_cons]
          tauto

end Pass

variable {catalog : Catalog} {extractor : Props.Extractor}
  {detector : Option (Category.Detector Float)}

theorem refreshFrom_components (catalog : Catalog) (moment : Moment) (scan : Scan) :
    (catalog.refreshFrom moment scan).components = (catalog.pass moment scan.paths).components :=
  rfl

/-- The ledger after a refresh has the reports of the scan, and then those of the loads. -/
theorem refreshFrom_ledger (standard : catalog.analyzer = .standard extractor detector)
    (total : extractor.IsTotal) (moment : Moment) (scan : Scan) :
    (catalog.refreshFrom moment scan).ledger =
      ((Pass.lookups (.standard extractor detector) catalog.cacheMode moment
        { cache := catalog.cache } scan.paths).filterMap
          (Pass.reportOf? moment.disk)).foldl Ledger.keep
        (catalog.ledger.takeAll scan.events) := by
  have areReports := Pass.reports_run total detector catalog.cacheMode moment
    { cache := catalog.cache } scan.paths
  rw [List.filterMap_nil, List.nil_append] at areReports
  rw [← areReports, ← Ledger.takeAll_eq, ← standard]
  unfold refreshFrom observe
  dsimp only
  rw [Ledger.takeAll_append, Ledger.takeAll_append, Ledger.takeAll_append]
  rfl

/-- A refresh either fails, and leaves the catalog as it was but for what happened in the
scan, or takes all files that were scanned.  Each file whose time cannot be read, is no date
or cannot be compared, and each one that is not served from the cache and cannot be read,
leaves one report, in the order of the scan.  The others have components, and these are the
components of a refresh at any moment at which only they are scanned and are found with the
same times and contents. -/
theorem refresh_isolates (standard : catalog.analyzer = .standard extractor detector)
    (total : extractor.IsTotal) (moment : Moment) :
    (∀ fault, (catalog.refresh moment).2 = .error fault →
      ∃ events, catalog.workspace.survey moment.disk = (events, .error fault) ∧
        (catalog.refresh moment).1 = catalog.observe events) ∧
    ∀ components, (catalog.refresh moment).2 = .ok components →
      let loads := catalog.lookupsAt moment
      let files := Pass.loaded moment.disk loads
      (∃ scan, catalog.workspace.scan moment.disk = .ok scan ∧
        loads.map Prod.fst = scan.paths ∧
        (catalog.refresh moment).1.ledger =
          (loads.filterMap (Pass.reportOf? moment.disk)).foldl Ledger.keep
            (catalog.ledger.takeAll scan.events)) ∧
      (∀ file, file ∈ components.map Component.filePath ↔ file ∈ files.map Path.text) ∧
      ∀ other : Moment, other.cacheClock = moment.cacheClock →
        (∃ scan, catalog.workspace.scan other.disk = .ok scan ∧ scan.paths = files) →
        (∀ file ∈ files, other.disk.modified file = moment.disk.modified file ∧
          readSource other.disk file = readSource moment.disk file) →
        (catalog.refresh other).2 = .ok components := by
  cases scanned : catalog.workspace.scan moment.disk with
  | error fault =>
      have surveyed := Workspace.survey_of_failed_scan scanned
      have unloaded : catalog.refresh moment =
          (catalog.observe (catalog.workspace.survey moment.disk).1, .error fault) := by
        rw [refresh, surveyed]
      rw [unloaded]
      refine ⟨fun other failed => ?_, fun _ done => by cases done⟩
      cases failed
      exact ⟨_, surveyed, rfl⟩
  | ok scan =>
      have areLoads : catalog.lookupsAt moment = Pass.lookups (.standard extractor detector)
          catalog.cacheMode moment { cache := catalog.cache } scan.paths := by
        rw [lookupsAt, scanned, standard]
      rw [refresh_of_scan scanned, areLoads]
      refine ⟨fun _ failed => (by cases failed), fun components done => ?_⟩
      cases done
      rw [refreshFrom_components, pass, standard]
      refine ⟨⟨scan, rfl, Pass.map_fst_lookups _ _ _ _ _, ?_⟩, fun file => ?_, ?_⟩
      · exact refreshFrom_ledger standard total moment scan
      · rw [Pass.mem_files_run total]
        simp
      · rintro other sameClock ⟨otherScan, otherScanned, only⟩ found
        have same := Pass.run_sameYield (.refl { cache := catalog.cache }) sameClock found
        rw [refresh_of_scan otherScanned, refreshFrom_components, only, pass, standard,
          same.components]

/-- A first file that fails is passed over. -/
theorem refresh_of_first_report (standard : catalog.analyzer = .standard extractor detector)
    (moment : Moment) {scan : Scan} {first : Path} {rest : List Path} {report : Report}
    (scanned : catalog.workspace.scan moment.disk = .ok scan) (paths : scan.paths = first :: rest)
    (fails : (({ cache := catalog.cache } : Pass).lookup catalog.cacheMode moment.disk
      first).report? moment.disk first = some report) :
    (catalog.refresh moment).2 = .ok (rest.foldl (Pass.load (.standard extractor detector)
        catalog.cacheMode moment) { cache := catalog.cache }).components ∧
      Pass.loaded moment.disk (catalog.lookupsAt moment) =
        Pass.loaded moment.disk (Pass.lookups (.standard extractor detector) catalog.cacheMode
          moment { cache := catalog.cache } rest) := by
  have same := Pass.sameYield_of_report extractor detector fails
  constructor
  · rw [refresh_of_scan scanned, refreshFrom_components, paths, pass, standard, List.foldl_cons,
      (same.foldl rest).components]
  · rw [lookupsAt, scanned]
    dsimp only
    rw [paths, standard, Pass.lookups, Pass.lookups_congr same, Pass.loaded, List.filter_cons,
      Pass.reportOf?, fails]
    rfl

/-!
A project with two files in the scanned directory, of which the first one is no text.
-/

/-- A disk with some entries in the scanned directory. -/
def filesDisk (entries : List (List Char × Entry)) : Disk :=
  { root := .directory true [(['p'], .directory true [(['s'], .directory true entries)])] }

/-- A moment at which the scanned directory has some entries. -/
def filesMoment (entries : List (List Char × Entry)) : Moment :=
  { disk := filesDisk entries, clock := 0, now := Disk.directoryTime }

theorem cacheClock_filesMoment (entries : List (List Char × Entry)) :
    (filesMoment entries).cacheClock = 0 := rfl

/-- A file that is no text. -/
def garbledEntry : List Char × Entry :=
  ("AComponent.tsx".toList, .file [0xff] Disk.directoryTime)

def emptyEntry : List Char × Entry := ("BComponent.tsx".toList, .file [] Disk.directoryTime)

/-- A link to the file that is no text. -/
def linkEntry : List Char × Entry :=
  ("BComponent.tsx".toList, .link { slashes := 0, parts := ["AComponent.tsx".toList] })

/-- The second file. -/
def secondPath : Path := { slashes := 1, parts := [['p'], ['s'], "BComponent.tsx".toList] }

theorem entryAt_filesDisk (entries : List (List Char × Entry)) :
    (filesDisk entries).entryAt oneRoot = .ok (.directory true entries) :=
  Disk.entryAt_of_at? (by decide) (by decide) rfl rfl rfl

theorem entryAt_link : (filesDisk [garbledEntry, linkEntry]).entryAt secondPath =
    .ok garbledEntry.2 := by cbv

theorem entryAt_dangling : (filesDisk [linkEntry]).entryAt secondPath = .error .missing := by cbv

theorem modified_of_directoryTime {disk : Disk} {path : Path} {content : List UInt8}
    (found : disk.entryAt path = .ok (.file content Disk.directoryTime)) :
    disk.modified path = .ok Disk.directoryTime := by
  have isDate : Disk.dated Disk.directoryTime = .ok Disk.directoryTime := by decide
  exact (Disk.modified_of_entryAt found).trans isDate

theorem hasNames_paths : onePath.HasNames ∧ secondPath.HasNames := by
  unfold Path.HasNames
  decide

theorem holdsComponent_paths : ∀ path ∈ [onePath, secondPath],
    plainWorkspace.holdsComponent [oneRoot] path := by
  decide +kernel

/-- The two files, or one of them, are met in their order. -/
theorem scan_filesDisk {entries : List (List Char × Entry)} {paths : List Path}
    (isPaths : entries.map (fun found => oneRoot.child found.1) = paths)
    (distinct : (entries.map (·.1)).Nodup)
    (ordered : entries.Pairwise fun first second => Disk.isOrdered first.1 second.1)
    (notDirectory : ∀ found ∈ entries, found.2.isDirectory = false)
    (areFiles : ∀ path ∈ paths,
      path ∈ [onePath, secondPath] ∧ (filesDisk entries).leadsToDirectory path = false) :
    ∃ scan, newCatalog.workspace.scan (filesDisk entries) = .ok scan ∧ scan.paths = paths := by
  subst isPaths
  refine scan_oneRoot scanRoots_plainWorkspace (entryAt_filesDisk entries) distinct ordered fun found member => ?_
  obtain ⟨isOne, isFile⟩ := areFiles _ (List.mem_map_of_mem member)
  exact ⟨notDirectory found member, isFile, holdsComponent_paths _ isOne⟩

theorem unread_of_entryAt {disk : Disk} {path : Path} (named : path.HasNames)
    (found : disk.entryAt path = .ok garbledEntry.2) :
    ∃ fault, readSource disk path = .error fault := by
  have content : disk.contentAt path = .ok ([0xff], Disk.directoryTime) := by
    rw [Disk.contentAt, named.not_hasNull, found]
    rfl
  rw [readSource, content]
  exact ⟨_, rfl⟩

/-- A catalog in which the component of the second file is cached. -/
def linkSlot : Cache.Slot Float :=
  { component := { (default : Component) with
      filePath := secondPath.text, lastModified := Disk.directoryTime }
    uses := 1, lastUse := 0, tick := 0 }

def linkCatalog : Catalog := { newCatalog with cache := { slots := [linkSlot] } }

theorem scan_link : ∃ scan,
    linkCatalog.workspace.scan (filesDisk [garbledEntry, linkEntry]) = .ok scan ∧
      scan.paths = [onePath, secondPath] := by
  have first : (filesDisk [garbledEntry, linkEntry]).leadsToDirectory onePath = false :=
    Disk.not_leadsToDirectory_of_entryAt hasNames_paths.1 (Disk.entryAt_of_at? (by decide) (by decide) rfl rfl rfl)
      (by rintro _ ⟨⟩; rfl)
  have second : (filesDisk [garbledEntry, linkEntry]).leadsToDirectory secondPath = false :=
    Disk.not_leadsToDirectory_of_entryAt hasNames_paths.2 entryAt_link (by rintro _ ⟨⟩; rfl)
  exact scan_filesDisk rfl (by decide) (by decide) (by decide) (by simp [first, second])

theorem scan_dangling : ∃ scan,
    linkCatalog.workspace.scan (filesDisk [linkEntry]) = .ok scan ∧ scan.paths = [secondPath] := by
  have second : (filesDisk [linkEntry]).leadsToDirectory secondPath = false :=
    Disk.not_leadsToDirectory_of_entryAt hasNames_paths.2 entryAt_dangling (by rintro _ ⟨⟩)
  exact scan_filesDisk rfl (by decide) (by decide) (by decide) (by simp [second])

theorem report?_garbled (catalog : Catalog) {entries : List (List Char × Entry)}
    (found : (filesDisk entries).entryAt onePath = .ok garbledEntry.2)
    (isNew : catalog.cache.find? onePath.text = none) :
    ∃ report, (({ cache := catalog.cache } : Pass).lookup catalog.cacheMode (filesDisk entries)
      onePath).report? (filesDisk entries) onePath = some report := by
  have missing : ({ cache := catalog.cache } : Pass).lookup catalog.cacheMode (filesDisk entries)
      onePath = .missing := by
    rw [Pass.lookup, modified_of_directoryTime found]
    simp [Pass.cached?, isNew]
  obtain ⟨fault, unread⟩ := unread_of_entryAt hasNames_paths.1 found
  rw [missing, Lookup.report?, unread]
  exact ⟨_, rfl⟩

theorem refresh_link :
    (linkCatalog.refresh (filesMoment [garbledEntry, linkEntry])).2 = .ok [linkSlot.component] := by
  obtain ⟨scan, scanned, paths⟩ := scan_link
  have found : (filesDisk [garbledEntry, linkEntry]).entryAt onePath = .ok garbledEntry.2 :=
    Disk.entryAt_of_at? (by decide) (by decide) rfl rfl rfl
  obtain ⟨report, fails⟩ := report?_garbled linkCatalog found (by decide)
  have standard : linkCatalog.analyzer = .standard Props.bySource none := rfl
  have refreshed := (refresh_of_first_report standard (filesMoment [garbledEntry, linkEntry])
    scanned paths fails).1
  have served : ({ cache := linkCatalog.cache } : Pass).lookup linkCatalog.cacheMode
      (filesMoment [garbledEntry, linkEntry]).disk secondPath = .served linkSlot.component := by
    rw [Pass.lookup, filesMoment, modified_of_directoryTime entryAt_link]
    rfl
  rw [refreshed, List.foldl_cons, Pass.load_eq, served]
  rfl

theorem refresh_dangling : (linkCatalog.refresh (filesMoment [linkEntry])).2 = .ok [] := by
  obtain ⟨scan, scanned, paths⟩ := scan_dangling
  have untimed : ({ cache := linkCatalog.cache } : Pass).lookup linkCatalog.cacheMode
      (filesDisk [linkEntry]) secondPath = .untimed (.disk .missing secondPath.text) := by
    rw [Pass.lookup, Disk.modified, Disk.changedAt, entryAt_dangling]
    rfl
  have standard : linkCatalog.analyzer = .standard Props.bySource none := rfl
  exact (refresh_of_first_report standard (filesMoment [linkEntry]) scanned paths
    (congrArg (Lookup.report? _ _) untimed)).1

/-- A link is served from the cache while the file behind it fails, although the link fails
too where that file is gone. -/
theorem refresh_serves_link :
    let moment := filesMoment [garbledEntry, linkEntry]
    let without := filesMoment [linkEntry]
    linkCatalog.analyzer = .standard Props.bySource none ∧
      moment.disk.remove onePath.parts = without.disk ∧
      (∃ scan, linkCatalog.workspace.scan moment.disk = .ok scan ∧
        scan.paths = [onePath, secondPath]) ∧
      (∃ fault, readSource moment.disk onePath = .error fault) ∧
      (∃ fault, readSource moment.disk secondPath = .error fault) ∧
      (linkCatalog.refresh moment).2 = .ok [linkSlot.component] ∧
      (linkCatalog.refresh without).2 = .ok [] :=
  ⟨rfl, rfl, scan_link, unread_of_entryAt hasNames_paths.1 (Disk.entryAt_of_at? (by decide) (by decide) rfl rfl rfl),
    unread_of_entryAt hasNames_paths.2 entryAt_link, refresh_link, refresh_dangling⟩

theorem scan_beside_garbled : ∃ scan,
    newCatalog.workspace.scan (filesDisk [garbledEntry, emptyEntry]) = .ok scan ∧
      scan.paths = [onePath, secondPath] := by
  have first : (filesDisk [garbledEntry, emptyEntry]).leadsToDirectory onePath = false :=
    Disk.not_leadsToDirectory_of_entryAt hasNames_paths.1 (Disk.entryAt_of_at? (by decide) (by decide) rfl rfl rfl)
      (by rintro _ ⟨⟩; rfl)
  have second : (filesDisk [garbledEntry, emptyEntry]).leadsToDirectory secondPath = false :=
    Disk.not_leadsToDirectory_of_entryAt hasNames_paths.2 (Disk.entryAt_of_at? (by decide) (by decide) rfl rfl rfl)
      (by rintro _ ⟨⟩; rfl)
  exact scan_filesDisk rfl (by decide) (by decide) (by decide) (by simp [first, second])

theorem scan_alone : ∃ scan,
    newCatalog.workspace.scan (filesDisk [emptyEntry]) = .ok scan ∧ scan.paths = [secondPath] := by
  have second : (filesDisk [emptyEntry]).leadsToDirectory secondPath = false :=
    Disk.not_leadsToDirectory_of_entryAt hasNames_paths.2 (Disk.entryAt_of_at? (by decide) (by decide) rfl rfl rfl)
      (by rintro _ ⟨⟩; rfl)
  exact scan_filesDisk rfl (by decide) (by decide) (by decide) (by simp [second])

theorem read_of_entryAt {disk : Disk} (found : disk.entryAt secondPath = .ok emptyEntry.2) :
    disk.modified secondPath = .ok Disk.directoryTime ∧
      readSource disk secondPath = .ok ("", Disk.directoryTime) := by
  have content : disk.contentAt secondPath = .ok ([], Disk.directoryTime) := by
    rw [Disk.contentAt, hasNames_paths.2.not_hasNull, found]
    rfl
  refine ⟨modified_of_directoryTime found, ?_⟩
  rw [readSource, content]
  rfl

/-- A moment at which a file that is no text stands beside an empty one. -/
def besideMoment : Moment := filesMoment [garbledEntry, emptyEntry]

/-- A moment at which the empty file stands alone. -/
def aloneMoment : Moment := filesMoment [emptyEntry]

theorem read_beside : besideMoment.disk.modified secondPath = .ok Disk.directoryTime ∧
    readSource besideMoment.disk secondPath = .ok ("", Disk.directoryTime) :=
  read_of_entryAt (Disk.entryAt_of_at? (by decide) (by decide) rfl rfl rfl)

theorem read_alone : aloneMoment.disk.modified secondPath = .ok Disk.directoryTime ∧
    readSource aloneMoment.disk secondPath = .ok ("", Disk.directoryTime) :=
  read_of_entryAt (Disk.entryAt_of_at? (by decide) (by decide) rfl rfl rfl)

theorem report?_beside : ∃ report, (({ cache := newCatalog.cache } : Pass).lookup
    newCatalog.cacheMode besideMoment.disk onePath).report? besideMoment.disk onePath =
      some report :=
  report?_garbled newCatalog (Disk.entryAt_of_at? (by decide) (by decide) rfl rfl rfl) rfl

theorem refresh_beside : ∃ components, (newCatalog.refresh besideMoment).2 = .ok components ∧
    Pass.loaded besideMoment.disk (newCatalog.lookupsAt besideMoment) = [secondPath] := by
  have standard : newCatalog.analyzer = .standard Props.bySource none := rfl
  obtain ⟨scan, scanned, paths⟩ := scan_beside_garbled
  obtain ⟨timed, read⟩ := read_beside
  obtain ⟨report, fails⟩ := report?_beside
  obtain ⟨refreshed, areLoaded⟩ := refresh_of_first_report standard besideMoment scanned paths fails
  have missing : ({ cache := newCatalog.cache } : Pass).lookup newCatalog.cacheMode
      besideMoment.disk secondPath = .missing := by
    rw [Pass.lookup, timed]
    rfl
  have fine : Pass.reportOf? besideMoment.disk (secondPath, .missing) = none := by
    simp only [Pass.reportOf?, Lookup.report?, read]
  refine ⟨_, refreshed, ?_⟩
  rw [areLoaded, Pass.lookups, missing, Pass.lookups, Pass.loaded, List.filter_cons, fine]
  rfl

/-- The first file fails, and the second one is found as if there were no other file. -/
theorem refresh_passes_over :
    newCatalog.analyzer = .standard Props.bySource none ∧ Props.bySource.IsTotal ∧
      besideMoment.disk.remove onePath.parts = aloneMoment.disk ∧
      ∃ components, (newCatalog.refresh besideMoment).2 = .ok components ∧
        (∀ file, file ∈ components.map Component.filePath ↔ file = secondPath.text) ∧
        (newCatalog.refresh aloneMoment).2 = .ok components := by
  have standard : newCatalog.analyzer = .standard Props.bySource none := rfl
  obtain ⟨components, refreshed, onlySecond⟩ := refresh_beside
  obtain ⟨-, areFiles, sameElsewhere⟩ :=
    (refresh_isolates standard Props.bySource_isTotal besideMoment).2 components refreshed
  rw [onlySecond] at areFiles sameElsewhere
  have sameClock : aloneMoment.cacheClock = besideMoment.cacheClock :=
    (cacheClock_filesMoment _).trans (cacheClock_filesMoment _).symm
  have sameFile : ∀ file ∈ [secondPath],
      aloneMoment.disk.modified file = besideMoment.disk.modified file ∧
        readSource aloneMoment.disk file = readSource besideMoment.disk file :=
    List.forall_mem_singleton.mpr
      ⟨read_alone.1.trans read_beside.1.symm, read_alone.2.trans read_beside.2.symm⟩
  have alone : (newCatalog.refresh aloneMoment).2 = .ok components :=
    sameElsewhere aloneMoment sameClock scan_alone sameFile
  exact ⟨standard, Props.bySource_isTotal, rfl, components, refreshed,
    fun file => (areFiles file).trans List.mem_singleton, alone⟩

end Catalog

end ComponentAtlas
