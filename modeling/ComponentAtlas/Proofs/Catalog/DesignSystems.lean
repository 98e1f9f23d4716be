/-
Module: ComponentAtlas.Proofs.Catalog.DesignSystems
Purpose: Whose design system a catalog gives, whatever was asked before.
Main exports:
  Design.Snapshot.IsOf, Catalog.sourceFor, Catalog.sourcesOf, design_spec
-/
import ComponentAtlas.Proofs.Catalog.Transparency

namespace ComponentAtlas

/-- The snapshot is that of some components, taken at some time. -/
def Design.Snapshot.IsOf (snapshot : Design.Snapshot) (components : List Component) : Prop :=
  ∃ now, snapshot = Design.Snapshot.of now components

namespace Catalog

/-!
Design systems are kept by a key, and the key of all components is also that of a
category named by a star.  So the answer to a question depends on which question put the
kept one there.  The sources tell this: under each key, the category that was asked for
when nothing was kept.
-/

/-- The category that a key was last written for. -/
abbrev Sources := String → Option String

/-- The sources after the key of a category was written for it. -/
def Sources.write (sources : Sources) (category : Option String) : Sources := fun key =>
  if key = designKey category then category else sources key

theorem Sources.write_key (sources : Sources) (category : Option String) :
    sources.write category (designKey category) = category := if_pos rfl

theorem Sources.write_of_ne (sources : Sources) {category : Option String} {key : String}
    (ne : key ≠ designKey category) : sources.write category key = sources key := if_neg ne

/-- A design system is kept under the key of a category, and has not expired. -/
def keepsDesign (catalog : Catalog) (moment : Moment) (category : Option String) : Bool :=
  (catalog.designs.get moment.designClock (designKey category)).2.isSome

/-- The sources after a question that the catalog answers for a category. -/
def writeSource (catalog : Catalog) (moment : Moment) (sources : Sources)
    (category : Option String) : Sources :=
  if catalog.keepsDesign moment category then sources else sources.write category

/-- The sources after a step: a question is answered when there are components. -/
def stepSources (catalog : Catalog) (moment : Moment) (sources : Sources) : Step → Sources
  | .design category =>
    match catalog.current moment with
    | (next, .ok _) => next.writeSource moment sources category
    | (_, .error _) => sources
  | _ => sources

/-- The sources after a run. -/
def sourcesOf (catalog : Catalog) (sources : Sources) : List (Moment × Step) → Sources
  | [] => sources
  | (moment, step) :: rest =>
    (catalog.perform moment step).sourcesOf (catalog.stepSources moment sources step) rest

/-- The category whose components the answer for a category tells of. -/
def sourceFor (catalog : Catalog) (moment : Moment) (sources : Sources)
    (category : Option String) : Option String :=
  (catalog.current moment).1.writeSource moment sources category (designKey category)

/-!
Keys name their categories, but for the star.
-/

/-- Two questions are read alike: both ask for the category of the star, or neither. -/
def ReadAlike (first second : Option String) : Prop := first = some "*" ↔ second = some "*"

theorem ofCategory_eq_of_designKey_eq {first second : Option String}
    (sameKey : designKey first = designKey second) (alike : ReadAlike first second)
    (components : List Component) : ofCategory first components = ofCategory second components := by
  have sameLabel : (if (first.getD "").isEmpty then "*" else first.getD "") =
      if (second.getD "").isEmpty then "*" else second.getD "" := by
    simpa [designKey] using sameKey
  have empty {category : Option String} (isEmpty : (category.getD "").isEmpty) :
      ofCategory category components = components ∧ category ≠ some "*" := by
    cases category with
    | none => simp [ofCategory, admits]
    | some text =>
        have isNil : text = "" := by simpa using isEmpty
        subst isNil
        simp [ofCategory, admits]
  have filled {category : Option String} (notEmpty : (category.getD "").isEmpty = false) :
      category = some (category.getD "") := by
    cases category with
    | none => simp at notEmpty
    | some text => rfl
  cases firstEmpty : (first.getD "").isEmpty <;> cases secondEmpty : (second.getD "").isEmpty <;>
    simp only [firstEmpty, secondEmpty, if_true, Bool.false_eq_true, if_false] at sameLabel
  · rw [filled firstEmpty, filled secondEmpty, sameLabel]
  · have isStar : first = some "*" := by rw [filled firstEmpty, sameLabel]
    exact absurd (alike.mp isStar) (empty secondEmpty).2
  · have isStar : second = some "*" := by rw [filled secondEmpty, ← sameLabel]
    exact absurd (alike.mpr isStar) (empty firstEmpty).2
  · rw [(empty firstEmpty).1, (empty secondEmpty).1]

/-- What is kept is the design system of the components of its source, once the catalog
was refreshed. -/
def KeepsSources (catalog : Catalog) (sources : Sources) : Prop :=
  catalog.lastRefresh ≠ none →
    catalog.designs.Holds fun key snapshot =>
      designKey (sources key) = key ∧
        snapshot.IsOf (ofCategory (sources key) catalog.components)

variable {catalog : Catalog} {sources : Sources}

section Answer

variable {moment : Moment} {category : Option String}
  {designs : Cache.Expiring Float Design.Snapshot}

theorem designOf_of_kept {snapshot : Design.Snapshot}
    (found : catalog.designs.get moment.designClock (designKey category) =
      (designs, some snapshot)) (components : List Component) :
    catalog.designOf moment category components = ({ catalog with designs }, .ok snapshot) ∧
      catalog.writeSource moment sources category = sources := by
  simp [designOf, writeSource, keepsDesign, found]

theorem designOf_of_missing
    (found : catalog.designs.get moment.designClock (designKey category) = (designs, none))
    (components : List Component) :
    let snapshot := Design.Snapshot.of moment.now (ofCategory category components)
    catalog.designOf moment category components =
        ({ catalog with
            designs := designs.set moment.designClock (designKey category) snapshot none },
          .ok snapshot) ∧
      catalog.writeSource moment sources category = sources.write category := by
  simp [designOf, writeSource, keepsDesign, found]

end Answer

/-- The answer for a category tells of the components of its source. -/
theorem designOf_spec (keeps : catalog.KeepsSources sources)
    (refreshed : catalog.lastRefresh ≠ none) (moment : Moment) (category : Option String) :
    ∃ designs snapshot,
      catalog.designOf moment category catalog.components =
        ({ catalog with designs }, .ok snapshot) ∧
      designKey (catalog.writeSource moment sources category (designKey category)) =
        designKey category ∧
      snapshot.IsOf (ofCategory
        (catalog.writeSource moment sources category (designKey category)) catalog.components) ∧
      KeepsSources { catalog with designs } (catalog.writeSource moment sources category) := by
  have holds := keeps refreshed
  cases found : catalog.designs.get moment.designClock (designKey category) with
  | mk designs kept =>
      have readHolds := holds.get moment.designClock (designKey category)
      rw [found] at readHolds
      cases kept with
      | some snapshot =>
          obtain ⟨answer, sameSources⟩ := designOf_of_kept found catalog.components
          have isRead : (catalog.designs.get moment.designClock (designKey category)).2 =
              some snapshot := by rw [found]
          obtain ⟨lease, member, sameKey, rfl⟩ := Cache.Expiring.get_eq_some isRead
          obtain ⟨isSource, isOf⟩ := holds lease member
          rw [sameKey] at isSource isOf
          rw [sameSources]
          exact ⟨designs, lease.value, answer, isSource, isOf, fun _ => readHolds⟩
      | none =>
          obtain ⟨answer, newSources⟩ := designOf_of_missing found catalog.components
          rw [newSources]
          refine ⟨_, _, answer, by rw [Sources.write_key], ?_, fun _ => ?_⟩
          · rw [Sources.write_key]
            exact ⟨moment.now, rfl⟩
          · refine Cache.Expiring.holds_set _ none (fun lease member ne => ?_) ?_
            · rw [Sources.write_of_ne sources ne]
              exact readHolds lease member
            · rw [Sources.write_key]
              exact ⟨rfl, moment.now, rfl⟩

/-!
A refresh clears what is kept, so nothing that is kept is older than the components.
-/

theorem KeepsSources.refresh (keeps : catalog.KeepsSources sources) (moment : Moment) :
    (catalog.refresh moment).1.KeepsSources sources := by
  rcases refresh_cases catalog moment with ⟨scan, -, refreshed⟩ | ⟨fault, events, -, refreshed⟩
  · rw [refreshed]
    exact fun _ => Cache.Expiring.holds_clear _ _
  · rw [refreshed]
    exact keeps

/-- A catalog cannot be refreshed when it has to be: the machine does not tell of a scanned
directory whether it is there. -/
def IsStuck (catalog : Catalog) (moment : Moment) (fault : Fault) : Prop :=
  catalog.isDue moment.clock ∧ catalog.workspace.IsRefused moment.disk fault

/-- A catalog that can scan its project has components to answer with, unless it is
stuck. -/
theorem current_spec (ready : catalog.IsReady) (moment : Moment) :
    (∃ fault events, catalog.IsStuck moment fault ∧
      catalog.current moment = (catalog.observe events, .error fault)) ∨
    ∃ next, catalog.current moment = (next, .ok next.components) ∧ next.lastRefresh ≠ none ∧
      ∀ {sources : Sources}, catalog.KeepsSources sources → next.KeepsSources sources := by
  unfold current
  cases due : catalog.isDue moment.clock with
  | true =>
      rcases ready.refresh_cases moment with
        ⟨fault, events, refused, refreshed⟩ | ⟨scan, -, refreshed⟩
      · exact .inl ⟨fault, events, ⟨due, refused⟩, refreshed⟩
      · refine .inr ⟨_, refreshed, by simp [refreshFrom], fun keeps => ?_⟩
        have kept := keeps.refresh moment
        rwa [refreshed] at kept
  | false =>
      refine .inr ⟨catalog, rfl, fun isNew => ?_, fun keeps => keeps⟩
      simp [isDue, isNew] at due

/-- The answer to a question, the components it tells of, and what is kept then. -/
theorem design_eq (ready : catalog.IsReady) (keeps : catalog.KeepsSources sources)
    (moment : Moment) (category : Option String) :
    (∃ fault events, catalog.IsStuck moment fault ∧
      catalog.design moment category = (catalog.observe events, .error fault) ∧
      catalog.stepSources moment sources (.design category) = sources) ∨
    ∃ after snapshot,
      catalog.design moment category = (after, .ok snapshot) ∧
      designKey (catalog.sourceFor moment sources category) = designKey category ∧
      snapshot.IsOf (ofCategory (catalog.sourceFor moment sources category) after.components) ∧
      after.KeepsSources (catalog.stepSources moment sources (.design category)) := by
  rcases current_spec ready moment with
    ⟨fault, events, stuck, isCurrent⟩ | ⟨next, isCurrent, refreshed, nextKeeps⟩
  · unfold design andThen stepSources
    rw [isCurrent]
    exact .inl ⟨fault, events, stuck, rfl, rfl⟩
  · obtain ⟨designs, snapshot, answer, sameKey, isOf, kept⟩ :=
      designOf_spec (nextKeeps keeps) refreshed moment category
    unfold design andThen sourceFor stepSources
    rw [isCurrent]
    exact .inr ⟨{ next with designs }, snapshot, answer, sameKey, isOf, kept⟩

theorem perform_keepsSources (ready : catalog.IsReady) (keeps : catalog.KeepsSources sources)
    (moment : Moment) (step : Step) :
    (catalog.perform moment step).KeepsSources (catalog.stepSources moment sources step) := by
  by_cases isDesign : ∃ category, step = .design category
  · obtain ⟨category, rfl⟩ := isDesign
    have performed : catalog.perform moment (.design category) =
        (catalog.design moment category).1 := rfl
    rcases design_eq ready keeps moment category with
      ⟨fault, events, -, failed, sameSources⟩ | ⟨after, snapshot, answer, -, -, kept⟩
    · rw [performed, failed, sameSources]
      exact keeps
    · rw [performed, answer]
      exact kept
  · have sameSources : catalog.stepSources moment sources step = sources := by
      unfold stepSources
      split
      · exact absurd ⟨_, rfl⟩ isDesign
      · rfl
    rw [sameSources]
    exact perform_preserves (P := fun next => next.KeepsSources sources) step
      (fun _ keeps => keeps.refresh moment)
      (fun _ _ keeps => keeps)
      (fun _ category _ asked => absurd ⟨category, asked⟩ isDesign)
      (fun _ _ keeps => keeps)
      (fun _ keeps => keeps)
      (fun _ _ _ keeps => keeps)
      keeps

theorem run_keepsSources (ready : catalog.IsReady) (keeps : catalog.KeepsSources sources)
    {steps : List (Moment × Step)} (only : ∀ step ∈ steps, step.2.IsCacheOnly) :
    (catalog.run steps).KeepsSources (catalog.sourcesOf sources steps) := by
  induction steps generalizing catalog sources with
  | nil => exact keeps
  | cons step rest ih =>
      exact ih (perform_isReady ready step.1 (only step (by simp)))
        (perform_keepsSources ready keeps step.1 step.2)
        (fun next member => only next (List.mem_cons_of_mem _ member))

theorem writeSource_ne {category asked : Option String} (moment : Moment) (ne : asked ≠ category)
    (notSource : ∀ key, sources key ≠ category) (key : String) :
    catalog.writeSource moment sources asked key ≠ category := by
  unfold writeSource
  split
  · exact notSource key
  · unfold Sources.write
    split
    · exact ne
    · exact notSource key

/-- A source is a category that was asked for. -/
theorem sourcesOf_ne {category : Option String} {steps : List (Moment × Step)}
    (notAsked : ∀ step ∈ steps, ∀ asked, step.2 = .design asked → asked ≠ category)
    (notSource : ∀ key, sources key ≠ category) (key : String) :
    catalog.sourcesOf sources steps key ≠ category := by
  induction steps generalizing catalog sources with
  | nil => exact notSource key
  | cons first rest ih =>
      obtain ⟨moment, step⟩ := first
      refine ih (fun next member => notAsked next (List.mem_cons_of_mem _ member)) ?_
      cases step with
      | design asked =>
          rw [stepSources]
          rcases catalog.current moment with ⟨next, fault | components⟩
          · exact notSource
          · exact writeSource_ne moment (notAsked _ List.mem_cons_self asked rfl) notSource
      | _ => exact notSource

end Catalog

theorem Design.Snapshot.isOf_iff {components others : List Component} {snapshot : Design.Snapshot}
    (isOf : snapshot.IsOf components) (now : Timestamp) :
    snapshot.IsOf others ↔
      Design.Snapshot.of now components = Design.Snapshot.of now others := by
  obtain ⟨taken, rfl⟩ := isOf
  simp [IsOf, of]

namespace Catalog

variable {catalog : Catalog}

/-- In every run and for every category, a catalog gives a design system unless it is stuck,
and this is that of the loaded components of the source of its key.  That is the design
system of the category itself exactly when the two are the same; so it always is but for a
category named by a star that all components were asked for before, or the other way
round. -/
theorem design_spec (ready : catalog.IsReady) (isNew : catalog.lastRefresh = none)
    {steps : List (Moment × Step)} (only : ∀ step ∈ steps, step.2.IsCacheOnly)
    (moment : Moment) (category : Option String) :
    (∃ fault events, (catalog.run steps).IsStuck moment fault ∧
      (catalog.run steps).design moment category =
        ((catalog.run steps).observe events, .error fault)) ∨
    ∃ after snapshot, (catalog.run steps).design moment category = (after, .ok snapshot) ∧
      let source := (catalog.run steps).sourceFor moment
        (catalog.sourcesOf (fun _ => none) steps) category
      designKey source = designKey category ∧
      snapshot.IsOf (ofCategory source after.components) ∧
      (snapshot.IsOf (ofCategory category after.components) ↔
        Design.Snapshot.of moment.now (ofCategory source after.components) =
          Design.Snapshot.of moment.now (ofCategory category after.components)) ∧
      (ReadAlike source category → snapshot.IsOf (ofCategory category after.components)) ∧
      ((∀ step ∈ steps, ∀ other, step.2 = .design other → other ≠ some "*") →
        category ≠ some "*" → snapshot.IsOf (ofCategory category after.components)) := by
  have keepsNew : catalog.KeepsSources fun _ => none := fun refreshed => absurd isNew refreshed
  rcases design_eq (run_isReady ready only) (run_keepsSources ready keepsNew only) moment
      category with
    ⟨fault, events, stuck, failed, -⟩ | ⟨after, snapshot, answer, sameKey, isOf, -⟩
  case inl => exact .inl ⟨fault, events, stuck, failed⟩
  right
  have alikeIsOf : ReadAlike ((catalog.run steps).sourceFor moment
      (catalog.sourcesOf (fun _ => none) steps) category) category →
      snapshot.IsOf (ofCategory category after.components) := fun alike => by
    rwa [← ofCategory_eq_of_designKey_eq sameKey alike]
  refine ⟨after, snapshot, answer, sameKey, isOf, Design.Snapshot.isOf_iff isOf moment.now,
    alikeIsOf, ?_⟩
  intro notAsked notStar
  have noSource : ∀ key, catalog.sourcesOf (fun _ => none) steps key ≠ some "*" :=
    sourcesOf_ne notAsked fun _ isStar => by cases isStar
  have sourceNotStar : (catalog.run steps).sourceFor moment
      (catalog.sourcesOf (fun _ => none) steps) category ≠ some "*" :=
    writeSource_ne moment notStar noSource _
  exact alikeIsOf ⟨fun isStar => absurd isStar sourceNotStar, fun isStar => absurd isStar notStar⟩

/-!
A project with files of two categories, which are read once and not cached.
-/

def steadyWorkspace : Workspace :=
  { plainWorkspace with
    entries := [(.text "scanPaths", .texts ["s"]), (.text "cacheEnabled", .bool false),
      (.text "autoRefresh", .bool false)]
    settings := { plainWorkspace.settings with cacheEnabled := false, autoRefresh := false } }

def steadyCatalog : Catalog :=
  Catalog.start steadyWorkspace (Analyzer.standard Props.bySource none) { rules := [] } {} []

def twoNames : List (List Char) := ["ButtonComponent.tsx".toList, "ModalComponent.tsx".toList]

def emptyFile : Entry := .file [] Disk.directoryTime

def twoEntries : List (List Char × Entry) := twoNames.map fun name => (name, emptyFile)

def twoFiles : Disk :=
  { root := .directory true [(['p'], .directory true [(['s'], .directory true twoEntries)])] }

def twoMoment : Moment := { disk := twoFiles, clock := 0, now := Disk.directoryTime }

/-- The catalog has read both files, and does not do so again on its own. -/
structure HasRead (catalog : Catalog) : Prop where
  isOff : catalog.workspace.settings.autoRefresh = false
  refreshed : catalog.lastRefresh ≠ none
  both : ∃ button modal : Component, catalog.components = [button, modal] ∧
    button.category = "forms" ∧ modal.category = "overlay"

theorem HasRead.not_isDue (hasRead : catalog.HasRead) (clock : Float) :
    catalog.isDue clock = false := by
  obtain ⟨last, isLast⟩ := Option.ne_none_iff_exists'.mp hasRead.refreshed
  simp [isDue, isLast, hasRead.isOff]

/-- A question for a design system leaves what was read. -/
theorem HasRead.design (hasRead : catalog.HasRead) (moment : Moment) (category : Option String) :
    (catalog.design moment category).1.HasRead := by
  have isCurrent : catalog.current moment = (catalog, .ok catalog.components) := by
    rw [current, hasRead.not_isDue]
    rfl
  unfold Catalog.design andThen
  rw [isCurrent]
  dsimp only
  unfold designOf
  dsimp only
  split
  · exact ⟨hasRead.isOff, hasRead.refreshed, hasRead.both⟩
  · exact ⟨hasRead.isOff, hasRead.refreshed, hasRead.both⟩

theorem entryAt_twoFiles : twoFiles.entryAt oneRoot = .ok (.directory true twoEntries) :=
  Disk.entryAt_of_at? (by decide) (by decide) rfl rfl rfl

/-- Both files are empty. -/
theorem entryAt_twoNames : ∀ name ∈ twoNames,
    twoFiles.entryAt (oneRoot.child name) = .ok emptyFile := by
  refine List.forall_mem_cons.mpr ⟨?_, List.forall_mem_singleton.mpr ?_⟩
  · exact Disk.entryAt_of_at? (by decide) (by decide) rfl rfl rfl
  · exact Disk.entryAt_of_at? (by decide) (by decide) rfl rfl rfl

theorem hasNames_twoNames : ∀ name ∈ twoNames, (oneRoot.child name).HasNames := by
  unfold Path.HasNames
  decide

theorem scan_twoFiles : ∃ scan, steadyCatalog.workspace.scan twoFiles = .ok scan ∧
    scan.paths = twoNames.map oneRoot.child := by
  have areComponents : ∀ name ∈ twoNames,
      steadyWorkspace.holdsComponent [oneRoot] (oneRoot.child name) := by
    decide +kernel
  have isRoots : steadyWorkspace.scanRoots = .ok [oneRoot] := by rfl
  refine scan_oneRoot isRoots entryAt_twoFiles (by decide) (by decide) fun found member => ?_
  obtain ⟨name, isName, rfl⟩ := List.mem_map.mp member
  have notDirectory := Disk.not_leadsToDirectory_of_entryAt (hasNames_twoNames name isName)
    (entryAt_twoNames name isName) (by rintro _ ⟨⟩; rfl)
  exact ⟨rfl, notDirectory, areComponents name isName⟩

/-- A file is read, and its component comes last. -/
theorem load_twoFiles {pass : Pass} {name : List Char} (member : name ∈ twoNames)
    {component : Component}
    (isComponent : Analysis.componentOf Props.bySource none (oneRoot.child name) (some [])
      Disk.directoryTime = some component) :
    (Pass.load steadyCatalog.analyzer steadyCatalog.cacheMode twoMoment pass
      (oneRoot.child name)).components = placeComponent component pass.components := by
  have there := entryAt_twoNames name member
  have isDate : Disk.dated Disk.directoryTime = .ok Disk.directoryTime := by decide
  have isTime : twoMoment.disk.modified (oneRoot.child name) = .ok Disk.directoryTime :=
    (Disk.modified_of_entryAt there).trans isDate
  have version : twoFiles.versionAt? (oneRoot.child name) =
      some (some [], Disk.directoryTime) := by
    rw [Disk.versionAt?, there]
    rfl
  have standard : steadyCatalog.analyzer = Analyzer.standard Props.bySource none := rfl
  have isFound : (Analyzer.standard Props.bySource none).component? twoMoment.disk
      (oneRoot.child name) = some component :=
    (Analyzer.component?_standard (hasNames_twoNames name member)
      (Disk.dated_eq_ok_iff.mp isDate).1 version).trans isComponent
  have outdated : pass.cache.isFresh? steadyCatalog.cacheMode (oneRoot.child name).text
      Disk.directoryTime = some false := rfl
  rw [Pass.load_of_outdated isTime outdated, analyze_components, standard, isFound]

theorem hasRead_refresh : (steadyCatalog.refresh twoMoment).1.HasRead := by
  obtain ⟨scan, scanned, paths⟩ := scan_twoFiles
  obtain ⟨button, isButton, buttonCategory⟩ : ∃ component,
      Analysis.componentOf Props.bySource none (oneRoot.child "ButtonComponent.tsx".toList)
        (some []) Disk.directoryTime = some component ∧ component.category = "forms" :=
    ⟨_, rfl, by decide +kernel⟩
  obtain ⟨modal, isModal, modalCategory⟩ : ∃ component,
      Analysis.componentOf Props.bySource none (oneRoot.child "ModalComponent.tsx".toList)
        (some []) Disk.directoryTime = some component ∧ component.category = "overlay" :=
    ⟨_, rfl, by decide +kernel⟩
  have apart : button.filePath ≠ modal.filePath := by
    rw [(Analysis.componentOf_spec isButton).1, (Analysis.componentOf_spec isModal).1]
    decide
  have loaded : (steadyCatalog.pass twoMoment scan.paths).components = [button, modal] := by
    rw [paths, pass, twoNames, List.map_cons, List.map_singleton, List.foldl_cons,
      List.foldl_cons, List.foldl_nil, load_twoFiles (by decide) isModal,
      load_twoFiles (by decide) isButton]
    exact placeComponent_of_new (List.forall_mem_singleton.mpr apart)
  rw [refresh_of_scan scanned]
  exact ⟨rfl, Option.some_ne_none _, button, modal, loaded, buttonCategory, modalCategory⟩

/-- The design systems of another category and of all components are asked for. -/
def earlierSteps : List (Moment × Step) :=
  [(twoMoment, .refresh), (twoMoment, .design (some "overlay")), (twoMoment, .design none)]

/-- The answer for a category tells of its components, although others were asked for. -/
theorem design_after_design : ∃ after snapshot button modal,
    (steadyCatalog.run earlierSteps).design twoMoment (some "forms") = (after, .ok snapshot) ∧
      after.components = [button, modal] ∧ button.category = "forms" ∧
      modal.category = "overlay" ∧ snapshot.IsOf [button] := by
  have ready : steadyCatalog.IsReady := ⟨⟨by rfl, by rfl⟩, [oneRoot], by rfl⟩
  have only : ∀ step ∈ earlierSteps, step.2.IsCacheOnly := by
    simp [earlierSteps, Step.IsCacheOnly]
  have notStar : ∀ step ∈ earlierSteps, ∀ other, step.2 = .design other → other ≠ some "*" := by
    simp [earlierSteps]
  have hasRead : (steadyCatalog.run earlierSteps).HasRead :=
    (hasRead_refresh.design twoMoment (some "overlay")).design twoMoment none
  rcases design_spec ready rfl only twoMoment (some "forms") with
    ⟨fault, events, stuck, -⟩ | ⟨after, snapshot, answer, -, -, -, -, agrees⟩
  · cases (hasRead.not_isDue _).symm.trans stuck.1
  · have hasReadAfter : after.HasRead := by
      have next := hasRead.design twoMoment (some "forms")
      rwa [answer] at next
    obtain ⟨button, modal, areBoth, isForm, isOverlay⟩ := hasReadAfter.both
    have ofForms : ofCategory (some "forms") after.components = [button] := by
      rw [areBoth]
      simp [ofCategory, admits, isForm, isOverlay]
    have isOf := agrees notStar (by decide)
    rw [ofForms] at isOf
    exact ⟨after, snapshot, button, modal, answer, areBoth, isForm, isOverlay, isOf⟩

end Catalog

end ComponentAtlas
