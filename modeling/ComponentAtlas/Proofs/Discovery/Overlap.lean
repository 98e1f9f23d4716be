/-
Module: ComponentAtlas.Proofs.Discovery.Overlap
Purpose: A scan lists a file once for each scan path that lists it on its own, so that it
  lists a file again where scan paths overlap, and nowhere else.
Main exports:
  Workspace.listing, Workspace.withScanPath, JoinsListings, paths_ofRoots,
  scan_joinsListings
-/
import Mathlib
import ComponentAtlas.Proofs.Discovery.Pruning
import ComponentAtlas.Proofs.Fallible

namespace ComponentAtlas

/-- Files that are listed part by part.  No part lists a file twice, so that a file is
listed once for each part with it, and twice only if two parts share it. -/
structure JoinsListings (parts : List (List String)) (files : List String) : Prop where
  inOrder : files = parts.flatten
  eachOnce : ∀ part ∈ parts, part.Nodup
  counted : ∀ file, files.count file = parts.countP fun part => file ∈ part
  nodup_iff : files.Nodup ↔ parts.Pairwise List.Disjoint

theorem joinsListings_flatten {parts : List (List String)}
    (eachOnce : ∀ part ∈ parts, part.Nodup) : JoinsListings parts parts.flatten where
  inOrder := rfl
  eachOnce := eachOnce
  counted file := by
    induction parts with
    | nil => rfl
    | cons part rest ih =>
        obtain ⟨first, later⟩ := List.forall_mem_cons.mp eachOnce
        rw [List.flatten_cons, List.count_append, ih later, first.count, List.countP_cons]
        simp only [decide_eq_true_eq]
        exact Nat.add_comm _ _
  nodup_iff := List.nodup_flatten.trans (and_iff_right eachOnce)

namespace Path

/-- Of two directories with a common path below them, one lies within the other. -/
theorem isWithin_or_isWithin_of_below_eq {one other : Path} {way more : List (List Char)}
    (same : one.below way = other.below more) : one.isWithin other ∨ other.isWithin one := by
  obtain ⟨sameSlashes, sameParts⟩ := Path.mk.inj same
  have starts : one.parts <+: other.parts ++ more := sameParts ▸ List.prefix_append _ _
  rcases List.prefix_or_prefix_of_prefix starts (List.prefix_append _ _) with above | below
  · right
    simpa [isWithin, sameSlashes] using above
  · left
    simpa [isWithin, sameSlashes] using below

end Path

namespace Workspace

open ComponentAtlas.Path

variable {workspace : Workspace} {disk : Disk} {roots : List Path} {root : Path}

/-- The files that a scan lists, as they are written; a scan that fails lists none. -/
def listing (workspace : Workspace) (disk : Disk) : List String :=
  match workspace.scan disk with
  | .ok scan => scan.paths.map Path.text
  | .error _ => []

/-- The project as if it had one scan path only. -/
def withScanPath (workspace : Workspace) (scanPath : String) : Workspace :=
  { workspace with settings := { workspace.settings with scanPaths := [scanPath] } }

/-- The component files that are met below one directory. -/
def filesAt (workspace : Workspace) (disk : Disk) (root : Path) : List Path :=
  (Scan.ofRoots workspace disk [root]).paths

theorem listing_withScanPath {scanPath : String} (told : disk.Tells root)
    (isRoot : workspace.absolute (Path.ofText scanPath) = .ok root) :
    (workspace.withScanPath scanPath).listing disk =
      (workspace.filesAt disk root).map Path.text := by
  have isOnly : (workspace.withScanPath scanPath).scanRoots = .ok [root] :=
    mapM_cons_eq_ok.mpr ⟨root, [], isRoot, rfl, rfl⟩
  rw [listing, scan_of_tells isOnly (List.forall_mem_singleton.mpr told)]
  rfl

/-!
What a path below a scanned directory is taken for does not depend on the other scanned
directories, so each of them is walked as if it were the only one.
-/

theorem includes_below (isRoot : root ∈ roots) (way : List (List Char)) :
    workspace.includes roots (root.below way) = workspace.includes [root] (root.below way) := by
  have isWithinOne : roots.any (root.below way).isWithin :=
    List.any_eq_true.mpr ⟨root, isRoot, isWithin_below root way⟩
  have isWithinRoot : [root].any (root.below way).isWithin :=
    List.any_eq_true.mpr ⟨root, List.mem_singleton_self root, isWithin_below root way⟩
  rw [includes, includes, isWithinOne, isWithinRoot]

theorem sightings_eq_alone (proper : disk.root.IsProper IsName) (isRoot : root ∈ roots) :
    Scan.sightings workspace disk roots root = Scan.sightings workspace disk [root] root := by
  unfold Scan.sightings Disk.walk
  cases found : disk.entryAt root with
  | error problem => rfl
  | ok entry =>
      have sameWalk : disk.walkEntry (workspace.includes roots) root entry =
          disk.walkEntry (workspace.includes [root]) root entry :=
        Disk.walkEntry_congr (Disk.proper_of_entryAt proper found) (includes_below isRoot)
      simp only [sameWalk]

/-- No file is met at a scanned directory, or it stands on the disk and is walked. -/
theorem sightings_cases (workspace : Workspace) (disk : Disk) (roots : List Path) (root : Path) :
    (Scan.sightings workspace disk roots root).filterMap Scan.fileOf? = [] ∨
      ∃ entry, disk.entryAt root = .ok entry ∧
        Scan.sightings workspace disk roots root =
          disk.walkEntry (workspace.includes roots) root entry := by
  unfold Scan.sightings Disk.walk
  split
  case isTrue =>
    cases disk.entryAt root with
    | error problem => exact .inl rfl
    | ok entry => exact .inr ⟨entry, rfl, rfl⟩
  case isFalse => exact .inl rfl

/-- A file that is met stands below the scanned directory, at a way of names. -/
theorem exists_below_of_mem_sightings (proper : disk.root.IsProper IsName)
    (free : above ∉ root.parts) {file : Path}
    (met : file ∈ (Scan.sightings workspace disk roots root).filterMap Scan.fileOf?) :
    ∃ way, file = root.below way ∧ file.HasNames := by
  rcases sightings_cases workspace disk roots root with noFiles | ⟨entry, found, walked⟩
  · rw [noFiles] at met
    cases met
  · rw [walked] at met
    obtain ⟨way, -, wayNamed, rfl⟩ :=
      Disk.mem_files_walkEntry (Disk.proper_of_entryAt proper found) met
    have rootNamed : root.HasNames := Disk.allowed_of_entryAt proper found free
    exact ⟨way, rfl, rootNamed.below wayNamed⟩

theorem nodup_sightings (proper : disk.root.IsProper IsName) :
    ((Scan.sightings workspace disk roots root).filterMap Scan.fileOf?).Nodup := by
  rcases sightings_cases workspace disk roots root with noFiles | ⟨entry, found, walked⟩
  · rw [noFiles]
    exact List.nodup_nil
  · rw [walked]
    exact Disk.nodup_files_walkEntry _ (Disk.proper_of_entryAt proper found) root

theorem filesAt_eq : workspace.filesAt disk root =
    ((Scan.sightings workspace disk [root] root).filterMap Scan.fileOf?).filter
      (workspace.holdsComponent [root]) := by
  simp [filesAt, Scan.ofRoots, Scan.candidates]

theorem exists_below_of_mem_filesAt (proper : disk.root.IsProper IsName)
    (free : above ∉ root.parts) {file : Path} (isFile : file ∈ workspace.filesAt disk root) :
    ∃ way, file = root.below way ∧ file.HasNames := by
  rw [filesAt_eq] at isFile
  exact exists_below_of_mem_sightings proper free (List.mem_of_mem_filter isFile)

/-- A scan lists what each of its directories would list alone, one after the other. -/
theorem paths_ofRoots (proper : disk.root.IsProper IsName)
    (free : ∀ root ∈ roots, above ∉ root.parts) :
    (Scan.ofRoots workspace disk roots).paths = roots.flatMap (workspace.filesAt disk) := by
  rw [Scan.ofRoots, Scan.candidates, List.filter_flatMap]
  refine List.flatMap_congr fun root isRoot => ?_
  rw [sightings_eq_alone proper isRoot, filesAt_eq]
  refine List.filter_congr fun file met => ?_
  obtain ⟨way, rfl, -⟩ := exists_below_of_mem_sightings proper (free root isRoot) met
  rw [holdsComponent, holdsComponent, includes_below isRoot]

/-- One directory lists no file twice, even by its text. -/
theorem nodup_text_filesAt (proper : disk.root.IsProper IsName) (free : above ∉ root.parts) :
    ((workspace.filesAt disk root).map Path.text).Nodup := by
  have isOnce : (workspace.filesAt disk root).Nodup := by
    rw [filesAt_eq]
    exact (nodup_sightings proper).filter _
  refine isOnce.map_on fun one isOne other isOther same => ?_
  obtain ⟨-, -, oneNamed⟩ := exists_below_of_mem_filesAt proper free isOne
  obtain ⟨-, -, otherNamed⟩ := exists_below_of_mem_filesAt proper free isOther
  exact eq_of_text_eq oneNamed otherNamed same

/-- Directories that do not contain each other list no common file. -/
theorem disjoint_text_filesAt (proper : disk.root.IsProper IsName) {one other : Path}
    (oneFree : above ∉ one.parts) (otherFree : above ∉ other.parts)
    (apart : ¬ one.isWithin other ∧ ¬ other.isWithin one) :
    List.Disjoint ((workspace.filesAt disk one).map Path.text)
      ((workspace.filesAt disk other).map Path.text) := by
  intro text isOnes isOthers
  obtain ⟨file, isFile, rfl⟩ := List.mem_map.mp isOnes
  obtain ⟨otherFile, isOtherFile, sameText⟩ := List.mem_map.mp isOthers
  obtain ⟨way, isBelow, named⟩ := exists_below_of_mem_filesAt proper oneFree isFile
  obtain ⟨more, isOtherBelow, otherNamed⟩ :=
    exists_below_of_mem_filesAt proper otherFree isOtherFile
  have same : one.below way = other.below more := by
    rw [← isBelow, ← isOtherBelow, eq_of_text_eq otherNamed named sameText]
  rcases isWithin_or_isWithin_of_below_eq same with inside | outside
  · exact apart.1 inside
  · exact apart.2 outside

/-- A scan lists what the project would list with each of its scan paths alone, one after
the other.  So a file is listed once for each scan path that lists it, and none is listed
twice when no scanned directory is or lies inside another one.  Nothing is listed where the
machine does not tell of a scanned directory whether it is there. -/
theorem scan_joinsListings (rooted : workspace.root.isAbsolute)
    (proper : disk.root.IsProper IsName) (isRoots : workspace.scanRoots = .ok roots) :
    (∃ fault, disk.Refuses roots fault ∧ workspace.scan disk = .error fault) ∨
    ∃ scan, workspace.scan disk = .ok scan ∧
      JoinsListings
        (workspace.settings.scanPaths.map fun scanPath =>
          (workspace.withScanPath scanPath).listing disk)
        (scan.paths.map Path.text) ∧
      ((roots.Pairwise fun one other => ¬ one.isWithin other ∧ ¬ other.isWithin one) →
        (scan.paths.map Path.text).Nodup) := by
  rcases disk.tells_or_refuses roots with allTold | ⟨fault, refuses⟩
  case inr => exact .inl ⟨fault, refuses, scan_of_refuses isRoots refuses⟩
  right
  have free : ∀ root ∈ roots, above ∉ root.parts :=
    fun root isRoot => (scanRoots_spec rooted isRoots root isRoot).2
  have listings : (workspace.settings.scanPaths.map fun scanPath =>
        (workspace.withScanPath scanPath).listing disk) =
      roots.map fun root => (workspace.filesAt disk root).map Path.text :=
    map_eq_of_mapM_ok isRoots fun _ root isMember isRoot =>
      listing_withScanPath (allTold root isMember) isRoot
  have eachOnce : ∀ part ∈ roots.map fun root => (workspace.filesAt disk root).map Path.text,
      part.Nodup := by
    intro part member
    obtain ⟨root, isRoot, rfl⟩ := List.mem_map.mp member
    exact nodup_text_filesAt proper (free root isRoot)
  have joins := joinsListings_flatten eachOnce
  rw [← List.flatMap_def, ← List.map_flatMap, ← paths_ofRoots proper free] at joins
  refine ⟨Scan.ofRoots workspace disk roots, scan_of_tells isRoots allTold, ?_, ?_⟩
  · rw [listings]
    exact joins
  · intro apart
    rw [joins.nodup_iff, List.pairwise_map]
    exact apart.imp_of_mem fun isOne isOther areApart =>
      disjoint_text_filesAt proper (free _ isOne) (free _ isOther) areApart

/-- Two directories side by side, with one file in each. -/
def folders : Disk :=
  { root := .directory true [(['p'], .directory true
      [(['s'], .directory true [("a.tsx".toList, .file [] { wall := 0, offset := some 0 })]),
        (['t'], .directory true [("b.tsx".toList, .file [] { wall := 0, offset := some 0 })])])] }

def folderProject (scanPaths : List String) : Workspace :=
  { sampleProject with
    settings := { Settings.default with
      scanPaths
      excludePatterns := []
      componentPatterns := ["*.tsx"] } }

theorem proper_folders : folders.root.IsProper IsName := by
  refine .directory _ _ (by decide) (by decide) ?_
  refine List.forall_mem_singleton.mpr (.directory _ _ (by decide) (by decide) ?_)
  refine List.forall_mem_cons.mpr ⟨?_, List.forall_mem_singleton.mpr ?_⟩
  · exact .directory _ _ (by decide) (by decide) (List.forall_mem_singleton.mpr (.file _ _))
  · exact .directory _ _ (by decide) (by decide) (List.forall_mem_singleton.mpr (.file _ _))

/-- Scan paths side by side: each of them lists its file. -/
theorem scan_folders : ∃ scan, (folderProject ["s", "t"]).scan folders = .ok scan ∧
    scan.paths.map Path.text = ["/p/s/a.tsx", "/p/t/b.tsx"] ∧
    JoinsListings
      (["s", "t"].map fun scanPath =>
        ((folderProject ["s", "t"]).withScanPath scanPath).listing folders)
      (scan.paths.map Path.text) ∧
    (scan.paths.map Path.text).Nodup := by
  have rooted : (folderProject ["s", "t"]).root.isAbsolute := by decide
  have isRoots : (folderProject ["s", "t"]).scanRoots =
      .ok [{ slashes := 1, parts := [['p'], ['s']] },
        { slashes := 1, parts := [['p'], ['t']] }] := by
    rfl
  have isListing : (folderProject ["s", "t"]).listing folders =
      ["/p/s/a.tsx", "/p/t/b.tsx"] := by cbv
  rcases scan_joinsListings rooted proper_folders isRoots with
    ⟨fault, -, failed⟩ | ⟨scan, isScan, joins, nodup⟩
  · rw [listing, failed] at isListing
    cases isListing
  · rw [listing, isScan] at isListing
    exact ⟨scan, isScan, isListing, joins, nodup (by decide)⟩

/-- A scan path that is written twice, and one that lies in another one. -/
theorem not_nodup_listing_folders :
    ¬ ((folderProject ["s", "./s"]).listing folders).Nodup ∧
      ¬ ((folderProject [".", "t"]).listing folders).Nodup := by
  have isRepeated : (folderProject ["s", "./s"]).listing folders =
      ["/p/s/a.tsx", "/p/s/a.tsx"] := by cbv
  have isNested : (folderProject [".", "t"]).listing folders =
      ["/p/s/a.tsx", "/p/t/b.tsx", "/p/t/b.tsx"] := by cbv
  rw [isRepeated, isNested]
  decide

end Workspace

end ComponentAtlas
