/-
Module: ComponentAtlas.Proofs.Discovery.Versions
Purpose: What an analysis finds in a version of a file, and how versions follow each
  other.
Main exports:
  Analysis.componentOf, component?_standard, Disk.Advance, Disk.NeverTurnBack,
  Workspace.scan_paths_spec
-/
import ComponentAtlas.Discovery.Analysis
import ComponentAtlas.Proofs.Discovery.Survey
import ComponentAtlas.Proofs.Disk.Walk
import ComponentAtlas.Proofs.Settings.Opening

namespace ComponentAtlas

/-- The component that the analysis of a file gives, if there is one. -/
def Analyzer.component? (analyzer : Analyzer) (disk : Disk) (path : Path) : Option Component :=
  match analyzer.analyze disk path with
  | .ok analysis => analysis.component
  | .error _ => none

namespace Analysis

/-- The component in a version of a file; a file that may not be read or is no text has
none. -/
def componentOf (extractor : Props.Extractor) (detector : Option (Category.Detector Float))
    (path : Path) (content : Option (List UInt8)) (modified : Timestamp) : Option Component :=
  content.bind fun bytes =>
    match Text.Utf8.decode bytes with
    | .ok text => (ofSource extractor detector path (String.ofList text) modified).component
    | .error _ => none

variable {extractor : Props.Extractor} {detector : Option (Category.Detector Float)}
  {path : Path} {content : Option (List UInt8)} {modified : Timestamp}

/-- A component bears the path and the time of its file. -/
theorem componentOf_spec {component : Component}
    (found : componentOf extractor detector path content modified = some component) :
    component.filePath = path.text ∧ component.lastModified = modified := by
  obtain ⟨bytes, _, found⟩ := Option.bind_eq_some_iff.mp found
  split at found
  · simp only [ofSource, Option.some.injEq] at found
    subst found
    exact ⟨rfl, rfl⟩
  · cases found

theorem categoryFor_of_other_time (component : Component) (source : String) (other : Timestamp) :
    categoryFor detector { component with lastModified := other } source =
      categoryFor detector component source := by
  cases detector with
  | none => rfl
  | some detector => rfl

/-- The time of a file shows in its component and nowhere else. -/
theorem componentOf_of_other_time (other : Timestamp) :
    componentOf extractor detector path content modified =
      (componentOf extractor detector path content other).map fun component =>
        { component with lastModified := modified } := by
  cases content with
  | none => rfl
  | some bytes =>
      simp only [componentOf, Option.bind_some]
      split
      · simp only [ofSource, Option.map_some, Option.some.injEq]
        rw [← categoryFor_of_other_time _ _ modified]
        rfl
      · rfl

end Analysis

namespace Analyzer

open Analysis

variable {extractor : Props.Extractor} {detector : Option (Category.Detector Float)}
  {disk : Disk} {path : Path} {content : Option (List UInt8)} {modified : Timestamp}

theorem component?_of_unread {fault : Fault} (unread : readSource disk path = .error fault) :
    (Analyzer.standard extractor detector).component? disk path = none := by
  simp only [component?, standard, ofFile, unread]
  split <;> rename_i analyzed <;> split at analyzed <;> cases analyzed <;> rfl

/-- The component of a file with a date is that of its version. -/
theorem component?_standard (named : path.HasNames) (isDate : modified.isDate)
    (version : disk.versionAt? path = some (content, modified)) :
    (Analyzer.standard extractor detector).component? disk path =
      componentOf extractor detector path content modified := by
  have read := Disk.contentAt_of_versionAt? named version
  cases content with
  | none =>
      have unread : readSource disk path = .error (.disk .denied path.text) := by
        rw [readSource, read]
        rfl
      rw [component?_of_unread unread]
      rfl
  | some bytes =>
      cases decoded : Text.Utf8.decode bytes with
      | ok text =>
          have dated : Disk.dated modified = .ok modified :=
            Disk.dated_eq_ok_iff.mpr ⟨isDate, rfl⟩
          have isRead : readSource disk path = .ok (String.ofList text, modified) := by
            simp [readSource, read, decoded, dated, bind, Except.bind, pure, Except.pure]
          simp [component?, standard, ofFile, isRead, componentOf, decoded]
      | error fault =>
          have unread : readSource disk path = .error (.undecodable fault) := by
            simp [readSource, read, decoded, bind, Except.bind]
          rw [component?_of_unread unread]
          simp [componentOf, decoded]

/-- Only a version of a file with a date gives a component. -/
theorem exists_version_of_component? {component : Component}
    (found : (Analyzer.standard extractor detector).component? disk path = some component) :
    ∃ content modified, disk.versionAt? path = some (content, modified) ∧ modified.isDate := by
  cases read : readSource disk path with
  | error fault =>
      rw [component?_of_unread read] at found
      cases found
  | ok source =>
      obtain ⟨⟨bytes, modified⟩, isFile, read⟩ := bind_eq_ok.mp read
      dsimp only at read
      split at read
      · obtain ⟨date, dated, -⟩ := bind_eq_ok.mp read
        exact ⟨some bytes, modified, Disk.versionAt?_of_contentAt isFile,
          (Disk.dated_eq_ok_iff.mp dated).1⟩
      · cases read

end Analyzer

namespace Disk

/-- A later version of a file with another content has a later time. -/
def Advance (disks : List Disk) : Prop :=
  disks.Pairwise fun earlier later => ∀ path before after was becomes,
    earlier.versionAt? path = some (before, was) → later.versionAt? path = some (after, becomes) →
      before ≠ after → was.wall < becomes.wall

/-- A later version of the file at a path with the same content has no earlier time. -/
def NeverTurnBack (disks : List Disk) (path : Path) : Prop :=
  disks.Pairwise fun earlier later => ∀ content was becomes,
    earlier.versionAt? path = some (content, was) →
      later.versionAt? path = some (content, becomes) → was.wall ≤ becomes.wall

variable {disks : List Disk} {earlier last : Disk} {path : Path}
  {before after : Option (List UInt8)} {was becomes : Timestamp}

/-- Where times advance, a version that is no older than the last one has its content. -/
theorem Advance.same_content (advance : Advance (disks ++ [last]))
    (isEarlier : earlier ∈ disks ++ [last])
    (old : earlier.versionAt? path = some (before, was))
    (new : last.versionAt? path = some (after, becomes)) (notOlder : becomes.wall ≤ was.wall) :
    before = after := by
  rcases List.mem_append.mp isEarlier with isBefore | isLast
  · by_contra differ
    have later := (List.pairwise_append.mp advance).2.2 earlier isBefore last (by simp)
      path before after was becomes old new differ
    omega
  · rw [List.mem_singleton.mp isLast, new] at old
    cases old
    rfl

theorem NeverTurnBack.not_later (steady : NeverTurnBack (disks ++ [last]) path)
    (isEarlier : earlier ∈ disks ++ [last])
    (old : earlier.versionAt? path = some (before, was))
    (new : last.versionAt? path = some (before, becomes)) : was.wall ≤ becomes.wall := by
  rcases List.mem_append.mp isEarlier with isBefore | isLast
  · exact (List.pairwise_append.mp steady).2.2 earlier isBefore last (by simp)
      before was becomes old new
  · rw [List.mem_singleton.mp isLast, new] at old
    cases old
    exact le_refl _

end Disk

/-- The files that a scan finds have names, and are no directories. -/
theorem Workspace.scan_paths_spec {workspace : Workspace} (rooted : workspace.root.isAbsolute)
    {disk : Disk} (sound : disk.IsSound) {scan : Scan} (scanned : workspace.scan disk = .ok scan) :
    ∀ path ∈ scan.paths, path.HasNames ∧ disk.leadsToDirectory path = false := by
  obtain ⟨roots, areRoots, -, rfl⟩ := scan_eq_ok_iff.mp scanned
  intro path member
  obtain ⟨root, isRoot, met⟩ := List.mem_flatMap.mp (List.mem_of_mem_filter member)
  obtain ⟨sighting, isMet, isFile⟩ := List.mem_filterMap.mp met
  cases sighting with
  | refused other problem => cases isFile
  | file other =>
      cases isFile
      unfold Scan.sightings at isMet
      split at isMet
      · unfold Disk.walk at isMet
        split at isMet
        · rename_i entry found
          have free := (Workspace.scanRoots_spec rooted areRoots root isRoot).2
          have rootNamed : root.HasNames := Disk.allowed_of_entryAt sound.proper found free
          obtain ⟨notDirectory, way, _, wayNamed, rfl⟩ :=
            Disk.mem_walkEntry (Disk.proper_of_entryAt sound.proper found) isMet
          exact ⟨rootNamed.below wayNamed, notDirectory⟩
        · simp at isMet
      · cases isMet

end ComponentAtlas
