/-
Module: ComponentAtlas.Proofs.Discovery.Pruning
Purpose: Leaving out excluded files and directories on the way loses no component, and
  the order in which directories list their names does not matter.
Main exports:
  Path.IsAbove, Workspace.componentFiles, scan_eq_componentFiles
-/
import Mathlib
import ComponentAtlas.Proofs.Discovery.Survey
import ComponentAtlas.Proofs.Disk.Walk
import ComponentAtlas.Proofs.Path.Exclusion
import ComponentAtlas.Proofs.Settings.Opening

namespace ComponentAtlas

namespace Path

/-- The directory lies strictly above the other one.  Slashes in front do not count:
ways between paths are found by their names alone. -/
def IsAbove (directory other : Path) : Prop :=
  directory.parts <+: other.parts ∧ directory.parts ≠ other.parts

instance (directory other : Path) : Decidable (directory.IsAbove other) :=
  inferInstanceAs (Decidable (_ ∧ _))

/-- What lies below a directory is above another one only if the directory is. -/
theorem isAbove_of_below {directory other : Path} {way : List (List Char)} (ne_nil : way ≠ [])
    (starts : (directory.below way).parts <+: other.parts) : directory.IsAbove other := by
  have starts : directory.parts ++ way <+: other.parts := starts
  refine ⟨(List.prefix_append _ _).trans starts, fun same => ne_nil ?_⟩
  have fits := starts.length_le
  rw [same, List.length_append] at fits
  exact List.length_eq_zero_iff.mp (by omega)

theorem isWithin_below (directory : Path) (way : List (List Char)) :
    (directory.below way).isWithin directory := by
  simp [isWithin]

theorem isAbsolute_below {path : Path} (absolute : path.isAbsolute) (way : List (List Char)) :
    (path.below way).isAbsolute := absolute

end Path

namespace Workspace

open ComponentAtlas.Path

variable {workspace : Workspace} {disk other : Disk}

/-- The component files among all files below the scanned directories: those of the
first directory that exists, then those of the next. -/
def componentFiles (workspace : Workspace) (disk : Disk) (roots : List Path) : List Path :=
  roots.flatMap fun root =>
    match disk.entryAt root with
    | .ok entry =>
      (disk.filesBelow root entry).filter fun file => workspace.isComponentFile file = .ok true
    | .error _ => []

theorem isComponentFile_eq {roots : List Path} (isRoots : workspace.scanRoots = .ok roots)
    {file : Path} (absolute : file.isAbsolute) (named : file.HasNames) :
    workspace.isComponentFile file = .ok (workspace.holdsComponent roots file) := by
  simp [isComponentFile, absolute_of_hasNames workspace absolute named, isRoots, bind,
    Except.bind, pure, Except.pure]

/-- A file or directory below a scanned one is not left out while something at it or
below it stands for a component. -/
theorem includes_of_holdsComponent {roots : List Path} {root : Path} (isRoot : root ∈ roots)
    (notAbove : ¬ root.IsAbove workspace.root) {way more : List (List Char)}
    (ne_nil : way ≠ []) (plain : ∀ name ∈ root.parts ++ way ++ more, IsPlain name)
    (isHeld : workspace.holdsComponent roots (root.below (way ++ more))) :
    workspace.includes roots (root.below way) := by
  have isBelow : root.below (way ++ more) = (root.below way).below more := by
    simp [below, List.append_assoc]
  simp only [holdsComponent, includes, Bool.and_eq_true, Bool.not_eq_true', isBelow] at isHeld
  obtain ⟨⟨⟨_, belowKept⟩, _⟩, _⟩ := isHeld
  have notExcluded : workspace.filter.excludes
      ((root.below way).relative workspace.root) (root.below way).name = false := by
    rw [← Bool.not_eq_true]
    intro hit
    have hitBelow := excludes_below workspace.filter plain
      (fun starts => notAbove (isAbove_of_below ne_nil starts)) hit
    rw [belowKept] at hitBelow
    cases hitBelow
  have isWithin : roots.any (root.below way).isWithin :=
    List.any_eq_true.mpr ⟨root, isRoot, isWithin_below root way⟩
  simp [includes, isWithin, notExcluded]

theorem covers_holdsComponent {roots : List Path} {root : Path} (isRoot : root ∈ roots)
    (rootPlain : ∀ name ∈ root.parts, IsPlain name) (notAbove : ¬ root.IsAbove workspace.root) :
    Disk.Covers IsPlain (workspace.includes roots) (workspace.holdsComponent roots) root := by
  intro way more ne_nil wayPlain isHeld
  refine includes_of_holdsComponent isRoot notAbove ne_nil (fun name member => ?_) isHeld
  rw [List.append_assoc] at member
  exact (List.mem_append.mp member).elim (rootPlain name) (wayPlain name)

theorem not_leadsToDirectory_of_error {path : Path} {problem : DiskProblem}
    (missed : disk.entryAt path = .error problem) : disk.leadsToDirectory path = false := by
  rw [Disk.leadsToDirectory, Disk.isDirectory, Disk.presence, missed, Disk.presenceOf]
  cases Disk.hasNull path <;> cases problem.isAbsence <;> rfl

/-- At one of the scanned directories, the files that are met and stand for a component
are all the files below it that do. -/
theorem filter_sightings (rooted : workspace.root.isAbsolute)
    (proper : disk.root.IsProper IsPlain) {roots : List Path}
    (isRoots : workspace.scanRoots = .ok roots) {root : Path} (isRoot : root ∈ roots)
    (notAbove : ¬ root.IsAbove workspace.root) :
    ((Scan.sightings workspace disk roots root).filterMap Scan.fileOf?).filter
        (workspace.holdsComponent roots) =
      match disk.entryAt root with
      | .ok entry =>
        (disk.filesBelow root entry).filter fun file => workspace.isComponentFile file = .ok true
      | .error _ => [] := by
  obtain ⟨absolute, noAbove⟩ := scanRoots_spec rooted isRoots root isRoot
  cases found : disk.entryAt root with
  | error problem =>
      have notDirectory := not_leadsToDirectory_of_error found
      simp [Scan.sightings, notDirectory]
  | ok entry =>
      have rootPlain := Disk.allowed_of_entryAt proper found noAbove
      have entryProper := Disk.proper_of_entryAt proper found
      have rootNamed : root.HasNames := fun name member => (rootPlain name member).toIsName
      have kind : disk.leadsToDirectory root = entry.isDirectory := by
        rw [Disk.leadsToDirectory_eq rootNamed, found]
      cases isDirectory : entry.isDirectory with
      | false =>
          have nothingBelow : disk.filesBelow root entry = [] :=
            Disk.filesBelow_of_not_directory root isDirectory
          simp [Scan.sightings, kind, isDirectory, nothingBelow]
      | true =>
          have walked : Scan.sightings workspace disk roots root =
              disk.walkEntry (workspace.includes roots) root entry := by
            simp [Scan.sightings, kind, isDirectory, Disk.walk, found]
          have covers := covers_holdsComponent isRoot rootPlain notAbove
          rw [walked, Disk.filter_files_walkEntry entryProper covers]
          refine List.filter_congr fun file isFile => ?_
          obtain ⟨way, _, wayPlain, rfl⟩ := Disk.mem_filesBelow entryProper isFile
          have named : (root.below way).HasNames :=
            rootNamed.below fun name member => (wayPlain name member).toIsName
          rw [isComponentFile_eq isRoots (isAbsolute_below absolute way) named]
          simp

/-- Nothing is met on a disk that lists its names in another order that is not met on the
disk itself. -/
theorem ofRoots_eq_of_reordered (same : disk.root.Reordered other.root)
    (proper : disk.root.IsProper IsPlain) (roots : List Path) :
    Scan.ofRoots workspace other roots = Scan.ofRoots workspace disk roots := by
  have sameKinds := Disk.leadsToDirectory_eq_of_reordered same proper
  have sameSightings : Scan.sightings workspace other roots =
      Scan.sightings workspace disk roots := by
    funext root
    simp only [Scan.sightings, sameKinds, Disk.walk_eq_of_reordered _ same proper]
  have sameEvents : Scan.eventsAt workspace other roots = Scan.eventsAt workspace disk roots := by
    funext root
    simp only [Scan.eventsAt, sameKinds, sameSightings]
  simp only [Scan.ofRoots, Scan.candidates, sameSightings, sameEvents]

/-- A scan fails just where the machine does not tell of a scanned directory whether it is
there, as at the first of these.  Otherwise it finds exactly the component files below the
scanned directories, in the order of an unpruned walk.  It is the same when directories
list their names in another order.  No scanned directory may lie strictly above the root:
from such a directory the way to a file below it need not contain the way to the
directories in between, so that these may be excluded without the file. -/
theorem scan_eq_componentFiles (rooted : workspace.root.isAbsolute)
    (proper : disk.root.IsProper IsPlain) {roots : List Path}
    (isRoots : workspace.scanRoots = .ok roots)
    (notAbove : ∀ root ∈ roots, ¬ root.IsAbove workspace.root) :
    (∀ fault, workspace.scan disk = .error fault ↔ disk.Refuses roots fault) ∧
      (∀ scan, workspace.scan disk = .ok scan →
        scan.paths = workspace.componentFiles disk roots) ∧
      ∀ other : Disk, disk.root.Reordered other.root → workspace.scan other = workspace.scan disk := by
  refine ⟨fun fault => scan_eq_error_iff isRoots, ?_, ?_⟩
  · intro scan scanned
    obtain ⟨_, isRoots', -, rfl⟩ := scan_eq_ok_iff.mp scanned
    cases isRoots.symm.trans isRoots'
    simp only [Scan.ofRoots, Scan.candidates, componentFiles, List.filter_flatMap]
    exact List.flatMap_congr fun root isRoot =>
      filter_sightings rooted proper isRoots isRoot (notAbove root isRoot)
  · intro other same
    have sameAnswers := Disk.isDirectory_eq_of_reordered same proper
    rcases disk.tells_or_refuses roots with allTold | ⟨fault, refuses⟩
    · have otherTold : ∀ root ∈ roots, other.Tells root := fun root member => by
        obtain ⟨answer, told⟩ := allTold root member
        exact ⟨answer, (sameAnswers root).symm.trans told⟩
      rw [scan_of_tells isRoots allTold, scan_of_tells isRoots otherTold,
        ofRoots_eq_of_reordered same proper]
    · rw [scan_of_refuses isRoots refuses,
        scan_of_refuses isRoots (refuses.of_answers sameAnswers)]

/-- A project with one scanned directory, in which builds are left out. -/
def sampleProject : Workspace :=
  { users := { home := "/home".toList, others := [] }
    root := { slashes := 1, parts := [['p']] }
    configPath := { slashes := 1, parts := [['p'], ['c']] }
    entries := []
    settings := { Settings.default with
      scanPaths := ["s"]
      excludePatterns := ["build"]
      componentPatterns := ["*.tsx"] } }

def sampleRoot : Path := { slashes := 1, parts := [['p'], ['s']] }

def sampleFile : Entry := .file [] { wall := 0, offset := some 0 }

/-- Two files listed out of order, and one file each in a build and in a directory. -/
def sampleEntries : List (List Char × Entry) :=
  [("b.tsx".toList, sampleFile), ("build".toList, .directory true [("c.tsx".toList, sampleFile)]),
    ("lib".toList, .directory true [("d.tsx".toList, sampleFile)]), ("a.tsx".toList, sampleFile)]

def sampleFiles : Disk :=
  { root := .directory true
      [(['p'], .directory true [(['s'], .directory true sampleEntries)])] }

theorem proper_sampleFiles : sampleFiles.root.IsProper IsPlain := by
  have properFile : sampleFile.IsProper IsPlain := .file _ _
  have properFolder : ∀ name, IsPlain name →
      (Entry.directory true [(name, sampleFile)]).IsProper IsPlain := fun name plain =>
    .directory _ _ (List.nodup_singleton _) (List.forall_mem_singleton.mpr plain)
      (List.forall_mem_singleton.mpr properFile)
  refine .directory _ _ (by decide) (by decide) ?_
  refine List.forall_mem_singleton.mpr (.directory _ _ (by decide) (by decide) ?_)
  refine List.forall_mem_singleton.mpr (.directory _ _ (by decide) (by decide) ?_)
  refine List.forall_mem_cons.mpr ⟨properFile, List.forall_mem_cons.mpr ⟨?_, ?_⟩⟩
  · exact properFolder _ (by decide)
  · exact List.forall_mem_cons.mpr
      ⟨properFolder _ (by decide), List.forall_mem_singleton.mpr properFile⟩

/-- The files come out in the order of their names, and the build is left out. -/
theorem scan_sampleFiles : ∃ scan, sampleProject.scan sampleFiles = .ok scan ∧
    scan.paths = [sampleRoot.child "a.tsx".toList, sampleRoot.child "b.tsx".toList,
      (sampleRoot.child "lib".toList).child "d.tsx".toList] ∧
    ∀ other : Disk, sampleFiles.root.Reordered other.root → sampleProject.scan other = .ok scan := by
  have isRoots : sampleProject.scanRoots = .ok [sampleRoot] := by rfl
  have told : sampleFiles.Tells sampleRoot := ⟨true, by cbv⟩
  have areFiles : sampleProject.componentFiles sampleFiles [sampleRoot] =
      [sampleRoot.child "a.tsx".toList, sampleRoot.child "b.tsx".toList,
        (sampleRoot.child "lib".toList).child "d.tsx".toList] := by cbv
  have scanned := scan_of_tells isRoots (List.forall_mem_singleton.mpr told)
  obtain ⟨-, complete, sameScan⟩ :=
    scan_eq_componentFiles (by decide) proper_sampleFiles isRoots (by decide)
  refine ⟨_, scanned, ?_, fun other same => (sameScan other same).trans scanned⟩
  exact (complete _ scanned).trans areFiles

/-- A name that no directory can hold. -/
def longName : List Char := List.replicate 256 'a'

def longRoot : Path := { slashes := 1, parts := [['p'], longName] }

/-- The sample project, but for its scanned directory. -/
def longProject : Workspace :=
  { sampleProject with
    settings := { sampleProject.settings with scanPaths := [String.ofList longName] } }

theorem scanRoots_longProject : longProject.scanRoots = .ok [longRoot] := by
  have written : Path.ofText (String.ofList longName) = { slashes := 0, parts := [longName] } := by
    rw [Path.ofText, String.toList_ofList]
    decide +kernel
  have placed : longProject.absolute (Path.ofText (String.ofList longName)) = .ok longRoot := by
    rw [written]
    decide +kernel
  rw [scanRoots]
  change List.mapM (fun path => longProject.absolute (Path.ofText path)) [String.ofList longName] = _
  rw [List.mapM_cons, placed]
  rfl

theorem entryAt_longRoot : sampleFiles.entryAt longRoot = .error .nameTooLong := by
  have isShort : longRoot.isLong = false := by decide +kernel
  have tooLong : Path.isLongName longName := by decide +kernel
  have notAbove : longName ≠ above := by decide
  have inProject : sampleFiles.locateFrom maxLinks [['p']] [longName] = .error .nameTooLong := by
    have atHere : sampleFiles.at? [['p']].reverse =
        some (.directory true [(['s'], .directory true sampleEntries)]) := rfl
    rw [Disk.locateFrom, atHere]
    simp [Entry.isDirectory, Entry.isSearchable, notAbove, tooLong]
  have located : sampleFiles.locateFrom maxLinks [] longRoot.parts = .error .nameTooLong := by
    rw [longRoot, Disk.locateFrom, inProject]
    rfl
  rw [Disk.entryAt, Disk.locate, isShort, located]
  rfl

/-- Where a scanned directory has a name that is too long, a scan does not find the
component files, but fails. -/
theorem scan_longProject : longProject.scanRoots = .ok [longRoot] ∧
    ¬ longRoot.IsAbove longProject.root ∧
    longProject.scan sampleFiles = .error (.disk .nameTooLong longRoot.text) := by
  have named : longRoot.HasNames :=
    List.forall_mem_cons.mpr ⟨by decide, List.forall_mem_singleton.mpr (by decide +kernel)⟩
  have untold : sampleFiles.isDirectory longRoot =
      .error (.disk .nameTooLong longRoot.text) := by
    rw [Disk.isDirectory_eq named, entryAt_longRoot]
    rfl
  exact ⟨scanRoots_longProject, by decide,
    scan_of_refuses scanRoots_longProject (.here untold)⟩

end Workspace

end ComponentAtlas
