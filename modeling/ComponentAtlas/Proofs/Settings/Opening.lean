/-
Module: ComponentAtlas.Proofs.Settings.Opening
Purpose: What holds of a project that was opened and checked, and what changes to the
  settings of its cache leave as it is.
Main exports:
  Workspace.IsCoherent, openAt_spec, isCoherent_of_openAt, checkScanPaths_spec,
  exists_scanRoots_of_check, update_of_onlyCache
-/
import ComponentAtlas.Proofs.Fallible
import ComponentAtlas.Proofs.Path.Names

namespace ComponentAtlas

namespace Workspace

open ComponentAtlas.Path Settings

variable {workspace : Workspace}

/-- The settings in use are those that are written, and the root is absolute. -/
structure IsCoherent (workspace : Workspace) : Prop where
  inUse : ofEntries workspace.entries = .ok workspace.settings
  rooted : workspace.root.isAbsolute

/-- A path seen from an absolute root is absolute and has no two dots. -/
theorem absolute_spec (rooted : workspace.root.isAbsolute) {path seen : Path}
    (isSeen : workspace.absolute path = .ok seen) : seen.isAbsolute ∧ above ∉ seen.parts := by
  obtain ⟨home, _, isNormal⟩ := bind_eq_ok.mp isSeen
  simp only [pure, Except.pure, Except.ok.injEq] at isNormal
  subst isNormal
  have joined : (workspace.root.join home).isAbsolute := by
    unfold join
    split
    · assumption
    · exact rooted
  exact ⟨joined, above_notMem_normal joined⟩

theorem scanRoots_spec (rooted : workspace.root.isAbsolute) {roots : List Path}
    (isRoots : workspace.scanRoots = .ok roots) :
    ∀ root ∈ roots, root.isAbsolute ∧ above ∉ root.parts := by
  intro root member
  obtain ⟨written, _, isSeen⟩ := mapM_ok_backward isRoots root member
  exact absolute_spec rooted isSeen

theorem isAbsolute_of_realPath {disk : Disk} {path real : Path}
    (isReal : disk.realPath path = .ok real) : real.isAbsolute := by
  unfold Disk.realPath at isReal
  split at isReal
  · cases isReal
  · dsimp only at isReal
    split at isReal
    · cases isReal
    · cases isReal
      rfl

variable {machine : Machine} {root : Path} {configPath : Option Path} {overrides : Entries}

/-- Where a project that was opened has its settings from. -/
theorem openAt_spec (opened : openAt machine root configPath overrides = .ok workspace) :
    (∃ start, machine.disk.realPath start = .ok workspace.root) ∧
    configPathIn machine workspace.root configPath = .ok workspace.configPath ∧
    (∃ below, entriesOverDefault machine workspace.configPath = .ok below ∧
      overlay below overrides = .ok workspace.entries) ∧
    ofEntries workspace.entries = .ok workspace.settings := by
  obtain ⟨start, _, opened⟩ := bind_eq_ok.mp opened
  obtain ⟨real, isReal, opened⟩ := bind_eq_ok.mp opened
  obtain ⟨place, isPlace, opened⟩ := bind_eq_ok.mp opened
  obtain ⟨below, isBelow, opened⟩ := bind_eq_ok.mp opened
  obtain ⟨entries, laid, opened⟩ := bind_eq_ok.mp opened
  obtain ⟨settings, inUse, opened⟩ := bind_eq_ok.mp opened
  cases opened
  exact ⟨⟨start, isReal⟩, isPlace, ⟨below, isBelow, laid⟩, inUse⟩

end Workspace

/-!
A project whose settings were found to be in order has scan paths that are texts, and
each of them stands for a directory that can be named.
-/

namespace Settings

theorem CheckResult.errors_append (first second : CheckResult) :
    (first ++ second).errors = first.errors ++ second.errors := rfl

theorem CheckResult.errors_all (results : List CheckResult) :
    (CheckResult.all results).errors = results.flatMap (·.errors) := by
  suffices from_ : ∀ start : CheckResult,
      (results.foldl CheckResult.append start).errors =
        start.errors ++ results.flatMap (·.errors) by
    simpa [CheckResult.all] using from_ {}
  induction results with
  | nil => simp
  | cons result rest ih =>
      intro start
      rw [List.foldl_cons, ih]
      simp [CheckResult.append]

theorem checkScanPath_spec {site : Site} {value : Data} {result : CheckResult}
    (checked : checkScanPath site value = .ok result) (noErrors : result.errors = []) :
    ∃ written path, value = .text written ∧
      (Path.ofText written).expandUser site.users = .ok path := by
  cases value with
  | text written =>
      obtain ⟨path, expanded, _⟩ := bind_eq_ok.mp checked
      exact ⟨written, path, rfl, expanded⟩
  | _ =>
      obtain ⟨_, _, done⟩ := bind_eq_ok.mp checked
      cases done
      cases noErrors

/-- Where all items are checked without an error, each of them is. -/
theorem each_of_mapM {check : Data → Except Fault CheckResult} {items : List Data}
    {results : List CheckResult} (checked : items.mapM check = .ok results)
    (noErrors : (CheckResult.all results).errors = []) :
    ∀ item ∈ items, ∃ result, check item = .ok result ∧ result.errors = [] := by
  rw [CheckResult.errors_all, List.flatMap_eq_nil_iff] at noErrors
  intro item member
  obtain ⟨result, isResult, itemChecked⟩ := mapM_ok_forward checked item member
  exact ⟨result, itemChecked, noErrors result isResult⟩

/-- Scan paths without an error are a list of texts, each of which is a path. -/
theorem checkScanPaths_spec {site : Site} {value : Option Data} {result : CheckResult}
    (checked : checkScanPaths site value = .ok result) (noErrors : result.errors = []) :
    ∃ items, value = some (.list items) ∧ ∀ item ∈ items, ∃ written path,
      item = .text written ∧ (Path.ofText written).expandUser site.users = .ok path := by
  unfold checkScanPaths at checked
  split at checked
  · obtain ⟨results, eachChecked, done⟩ := bind_eq_ok.mp checked
    cases done
    refine ⟨_, rfl, fun item member => ?_⟩
    obtain ⟨_, itemChecked, noError⟩ := each_of_mapM eachChecked noErrors item member
    exact checkScanPath_spec itemChecked noError
  · cases checked
    cases noErrors

/-- What is written under a key, with the settings made of it. -/
theorem ofEntries_spec {entries : Entries} {settings : Settings}
    (done : ofEntries entries = .ok settings) :
    let field (name : String) := Entries.find? entries (.text name)
    let d := Settings.default
    frameworksOr d.frameworks (field "frameworks") = .ok settings.frameworks ∧
    amountOr d.refreshInterval (field "refreshInterval") = .ok settings.refreshInterval ∧
    amountOr d.designSystemTtl (field "designSystemTtl") = .ok settings.designSystemTtl ∧
    listOr d.scanPaths (field "scanPaths") = .ok settings.scanPaths ∧
    listOr d.excludePatterns (field "excludePatterns") = .ok settings.excludePatterns ∧
    listOr d.componentPatterns (field "componentPatterns") = .ok settings.componentPatterns ∧
    (asBool? (field "autoRefresh")).getD d.autoRefresh = settings.autoRefresh ∧
    (asBool? (field "cacheEnabled")).getD d.cacheEnabled = settings.cacheEnabled ∧
    (asInt? (field "cacheMaxSize")).getD d.cacheMaxSize = settings.cacheMaxSize := by
  obtain ⟨frameworks, areFrameworks, done⟩ := bind_eq_ok.mp done
  obtain ⟨interval, isInterval, done⟩ := bind_eq_ok.mp done
  obtain ⟨ttl, isTtl, done⟩ := bind_eq_ok.mp done
  obtain ⟨scanPaths, areScanPaths, done⟩ := bind_eq_ok.mp done
  obtain ⟨excluded, areExcluded, done⟩ := bind_eq_ok.mp done
  obtain ⟨patterns, arePatterns, done⟩ := bind_eq_ok.mp done
  cases done
  exact ⟨areFrameworks, isInterval, isTtl, areScanPaths, areExcluded, arePatterns, rfl, rfl, rfl⟩

end Settings

namespace Workspace

open ComponentAtlas.Path Settings

variable {workspace : Workspace}

end Workspace

/-!
An update that writes only the settings of the cache changes nothing else.
-/

namespace Entries

theorem find?_put_of_ne {key other : Key} (ne : key.canonical ≠ other.canonical)
    (entries : Entries) (value : Data) :
    (entries.put key value).find? other = entries.find? other := by
  induction entries with
  | nil => simp [put, find?, Key.same, ne]
  | cons entry rest ih =>
      unfold put
      split
      · rename_i isSame
        simp only [Key.same, decide_eq_true_eq] at isSame
        simp [find?, Key.same, isSame, ne]
      · by_cases isOther : entry.1.same other
        · simp [find?, isOther]
        · simpa [find?, isOther] using ih

theorem find?_putAll_of_ne {other : Key} {more : Entries}
    (ne : ∀ entry ∈ more, entry.1.canonical ≠ other.canonical) (entries : Entries) :
    (entries.putAll more).find? other = entries.find? other := by
  induction more generalizing entries with
  | nil => rfl
  | cons entry rest ih =>
      rw [putAll, List.foldl_cons, ← putAll,
        ih fun next member => ne next (List.mem_cons_of_mem _ member)]
      exact find?_put_of_ne (ne entry (by simp)) entries entry.2

end Entries

namespace Workspace

open ComponentAtlas.Path Settings

variable {workspace : Workspace}

/-- Written settings that say only whether components are cached, and how many. -/
def OnlyCache (updates : Entries) : Prop :=
  ∀ entry ∈ updates, entry.1 = .text "cacheEnabled" ∨ entry.1 = .text "cacheMaxSize"

instance (updates : Entries) : Decidable (OnlyCache updates) :=
  inferInstanceAs (Decidable (∀ entry ∈ updates, _ ∨ _))

theorem find?_putAll_of_onlyCache {updates : Entries} (only : OnlyCache updates) {name : String}
    (ne : name ≠ "cacheEnabled" ∧ name ≠ "cacheMaxSize") (entries : Entries) :
    (entries.putAll updates).find? (.text name) = entries.find? (.text name) := by
  refine Entries.find?_putAll_of_ne (fun entry member => ?_) entries
  rcases only entry member with isKey | isKey <;> simp [isKey, Key.canonical, ne.1.symm, ne.2.symm]

theorem overlay_of_onlyCache {updates : Entries} (only : OnlyCache updates) (entries : Entries) :
    overlay entries updates = .ok (entries.putAll updates) := by
  have noFramework : ∀ entry ∈ updates, entry.1.same frameworksKey = false := by
    intro entry member
    rcases only entry member with isKey | isKey <;>
      simp [isKey, frameworksKey, Key.same, Key.canonical]
  have allKept : (updates.filter fun entry => !entry.1.same frameworksKey) = updates :=
    List.filter_eq_self.mpr fun entry member => by simp [noFramework entry member]
  have notFound : Entries.find? updates frameworksKey = none := by
    unfold Entries.find?
    rw [List.find?_eq_none.mpr fun entry member => by simp [noFramework entry member]]
    rfl
  simp [overlay, allKept, notFound, pure, Except.pure]

theorem update_of_ok {updates entries : Entries} {settings : Settings}
    (laid : overlay workspace.entries updates = .ok entries)
    (inUse : ofEntries entries = .ok settings) :
    workspace.update updates = ({ workspace with entries, settings }, none) := by
  simp [update, laid, inUse]

/-- An update of the settings of the cache is accepted, and changes only these. -/
theorem update_of_onlyCache (coherent : workspace.IsCoherent) {updates : Entries}
    (only : OnlyCache updates) :
    ∃ entries enabled size,
      workspace.update updates =
        ({ workspace with
            entries
            settings := { workspace.settings with
              cacheEnabled := enabled
              cacheMaxSize := size } }, none) ∧
      (workspace.update updates).1.IsCoherent := by
  have same (name : String) (ne : name ≠ "cacheEnabled" ∧ name ≠ "cacheMaxSize") :=
    find?_putAll_of_onlyCache only ne workspace.entries
  obtain ⟨areFrameworks, isInterval, isTtl, areScanPaths, areExcluded, arePatterns, isAuto, -, -⟩ :=
    ofEntries_spec coherent.inUse
  have inUse : ofEntries (workspace.entries.putAll updates) =
      .ok { workspace.settings with
        cacheEnabled := (asBool? (Entries.find? (workspace.entries.putAll updates)
          (.text "cacheEnabled"))).getD Settings.default.cacheEnabled
        cacheMaxSize := (asInt? (Entries.find? (workspace.entries.putAll updates)
          (.text "cacheMaxSize"))).getD Settings.default.cacheMaxSize } := by
    unfold ofEntries
    simp only [same "frameworks" (by decide), same "refreshInterval" (by decide),
      same "designSystemTtl" (by decide), same "scanPaths" (by decide),
      same "excludePatterns" (by decide), same "componentPatterns" (by decide),
      same "autoRefresh" (by decide), areFrameworks, isInterval, isTtl, areScanPaths,
      areExcluded, arePatterns, isAuto]
    rfl
  have updated := update_of_ok (overlay_of_onlyCache only workspace.entries) inUse
  refine ⟨_, _, _, updated, ?_⟩
  rw [updated]
  exact { inUse := inUse, rooted := coherent.rooted }

end Workspace

end ComponentAtlas
