/-
Module: ComponentAtlas.Proofs.Disk.Walk
Purpose: What a walk meets, compared with all files of a tree, that it meets each file
  once, and that the order of listings does not matter to it.
Main exports:
  walkEntry_of_listed, mem_walkEntry, nodup_files_walkEntry, walkEntry_congr, filesBelow,
  Covers, filter_files_walkEntry, walkEntry_eq_of_reordered
-/
import Mathlib.Data.List.Sort
import ComponentAtlas.Discovery.Scan
import ComponentAtlas.Proofs.Disk.Tree

namespace ComponentAtlas.Disk

variable {α : Type} {allowed : List Char → Prop} {disk other : Disk}

/-!
Names in a directory are distinct, so ordering them leaves no choice: it commutes with
leaving entries out and with changing what the names stand for.
-/

theorem isOrdered_iff (first second : List Char) : isOrdered first second ↔ List.le first second := by
  simp only [isOrdered, Bool.not_eq_true', ← Bool.not_eq_true, List.lex_eq_true_iff_lex,
    decide_eq_true_eq]
  exact Iff.rfl

theorem isOrdered_trans {first second third : List Char} (before : isOrdered first second)
    (after : isOrdered second third) : isOrdered first third := by
  rw [isOrdered_iff] at before after ⊢
  exact List.le_trans before after

theorem isOrdered_total (first second : List Char) :
    isOrdered first second ∨ isOrdered second first := by
  rw [isOrdered_iff, isOrdered_iff]
  exact List.le_total first second

theorem eq_of_isOrdered {first second : List Char} (before : isOrdered first second)
    (after : isOrdered second first) : first = second := by
  rw [isOrdered_iff] at before after
  exact List.le_antisymm before after

theorem byName_perm (items : List (List Char × α)) : (byName items).Perm items :=
  List.mergeSort_perm _ _

theorem mem_byName {items : List (List Char × α)} {item : List Char × α} :
    item ∈ byName items ↔ item ∈ items := (byName_perm items).mem_iff

theorem distinct_byName {items : List (List Char × α)} (distinct : (items.map (·.1)).Nodup) :
    (byName items).Pairwise fun first second => first.1 ≠ second.1 :=
  List.pairwise_map.mp (((byName_perm items).map _).nodup_iff.mpr distinct)

theorem pairwise_byName (items : List (List Char × α)) :
    (byName items).Pairwise fun first second => isOrdered first.1 second.1 := by
  have transitive (a b c : List Char × α) (before : isOrdered a.1 b.1)
      (after : isOrdered b.1 c.1) : isOrdered a.1 c.1 := isOrdered_trans before after
  have total (a b : List Char × α) : isOrdered a.1 b.1 || isOrdered b.1 a.1 := by
    simpa using isOrdered_total a.1 b.1
  exact List.pairwise_mergeSort transitive total items

/-- Ordered lists of the same entries are the same, when their names are distinct. -/
theorem eq_of_perm_of_pairwise {left right : List (List Char × α)} (same : left.Perm right)
    (distinct : (left.map (·.1)).Nodup)
    (leftOrdered : left.Pairwise fun first second => isOrdered first.1 second.1)
    (rightOrdered : right.Pairwise fun first second => isOrdered first.1 second.1) :
    left = right :=
  same.eq_of_pairwise
    (fun _ _ isLeft isRight before after =>
      List.inj_on_of_nodup_map distinct isLeft (same.symm.subset isRight)
        (eq_of_isOrdered before after))
    leftOrdered rightOrdered

theorem byName_eq_of_perm {items others : List (List Char × α)} (same : items.Perm others)
    (distinct : (items.map (·.1)).Nodup) : byName items = byName others := by
  refine eq_of_perm_of_pairwise ?_ ?_ (pairwise_byName items) (pairwise_byName others)
  · exact ((byName_perm items).trans same).trans (byName_perm others).symm
  · exact ((byName_perm items).map _).nodup_iff.mpr distinct

theorem byName_filter (test : List Char × α → Bool) {items : List (List Char × α)}
    (distinct : (items.map (·.1)).Nodup) :
    byName (items.filter test) = (byName items).filter test := by
  refine eq_of_perm_of_pairwise ?_ ?_ (pairwise_byName _) ((pairwise_byName items).filter test)
  · exact (byName_perm _).trans ((byName_perm items).filter test).symm
  · rw [((byName_perm _).map _).nodup_iff]
    exact distinct.sublist (List.filter_sublist.map _)

theorem byName_map {β : Type} (change : List Char × α → List Char × β)
    (keepsName : ∀ item, (change item).1 = item.1) (items : List (List Char × α)) :
    byName (items.map change) = (byName items).map change := by
  rw [byName, byName, List.map_mergeSort]
  simp [keepsName]

/-!
A directory that can be listed is walked in two rounds over its names in order: its files
are met, then its directories are entered.
-/

theorem walkBelow_eq (disk : Disk) (wanted : Path → Bool) (path : Path)
    (entries : List (List Char × Entry)) :
    walkBelow disk wanted path entries =
      (entries.filter fun found => found.2.isDirectory && wanted (path.child found.1)).map
        fun found => (found.1, walkEntry disk wanted (path.child found.1) found.2) := by
  induction entries with
  | nil => rfl
  | cons found rest ih =>
      change (if found.2.isDirectory && wanted (path.child found.1) then
        (found.1, walkEntry disk wanted (path.child found.1) found.2) ::
          walkBelow disk wanted path rest
        else walkBelow disk wanted path rest) = _
      rw [List.filter_cons, ih]
      split <;> rfl

theorem walkEntry_directory (disk : Disk) (wanted : Path → Bool) (path : Path) (access : Access)
    (entries : List (List Char × Entry)) :
    walkEntry disk wanted path (.directory access entries) =
      match disk.listingProblem? path with
      | some problem => [.refused path problem]
      | none =>
        filesIn disk wanted path entries ++
          (byName (walkBelow disk wanted path entries)).flatMap (·.2) := by
  rfl

theorem walkEntry_of_listed (wanted : Path → Bool) {path : Path}
    (listed : disk.listingProblem? path = none) {access : Access}
    {entries : List (List Char × Entry)} (distinct : (entries.map (·.1)).Nodup) :
    walkEntry disk wanted path (.directory access entries) =
      ((byName entries).filter fun found =>
        !disk.isFolder path found && wanted (path.child found.1)).map
          (fun found => .file (path.child found.1)) ++
      ((byName entries).filter fun found =>
        found.2.isDirectory && wanted (path.child found.1)).flatMap
          fun found => walkEntry disk wanted (path.child found.1) found.2 := by
  rw [walkEntry_directory, listed]
  dsimp only
  rw [filesIn, walkBelow_eq, byName_filter _ distinct,
    byName_map (fun found => (found.1, walkEntry disk wanted (path.child found.1) found.2))
      fun _ => rfl,
    byName_filter _ distinct, List.flatMap_map]

theorem walkEntry_of_refused (wanted : Path → Bool) {path : Path} {problem : DiskProblem}
    (refused : disk.listingProblem? path = some problem) (access : Access)
    (entries : List (List Char × Entry)) :
    walkEntry disk wanted path (.directory access entries) = [.refused path problem] := by
  rw [walkEntry_directory, refused]

theorem walkEntry_of_not_directory (wanted : Path → Bool) (path : Path) {entry : Entry}
    (notDirectory : entry.isDirectory = false) : walkEntry disk wanted path entry = [] := by
  cases entry with
  | file content modified => rfl
  | sealed modified => rfl
  | link target => rfl
  | directory access entries => cases notDirectory

theorem files_walkEntry_of_listed (wanted : Path → Bool) {path : Path}
    (listed : disk.listingProblem? path = none) {access : Access}
    {entries : List (List Char × Entry)} (distinct : (entries.map (·.1)).Nodup) :
    (walkEntry disk wanted path (.directory access entries)).filterMap Scan.fileOf? =
      ((byName entries).filter fun found =>
        !disk.isFolder path found && wanted (path.child found.1)).map
          (fun found => path.child found.1) ++
      ((byName entries).filter fun found =>
        found.2.isDirectory && wanted (path.child found.1)).flatMap
          fun found => (walkEntry disk wanted (path.child found.1) found.2).filterMap
            Scan.fileOf? := by
  rw [walkEntry_of_listed wanted listed distinct, List.filterMap_append, List.filterMap_flatMap]
  simp [List.filterMap_map, Function.comp_def, Scan.fileOf?]

theorem files_walkEntry_of_refused (wanted : Path → Bool) {path : Path} {problem : DiskProblem}
    (refused : disk.listingProblem? path = some problem) (access : Access)
    (entries : List (List Char × Entry)) :
    (walkEntry disk wanted path (.directory access entries)).filterMap Scan.fileOf? = [] := by
  rw [walkEntry_of_refused wanted refused]
  rfl

/-- A file that is met stands below the directory, at a way of names, and its path leads to
no directory. -/
theorem mem_walkEntry {wanted : Path → Bool} {entry : Entry} (proper : entry.IsProper allowed) :
    ∀ {path file : Path}, .file file ∈ walkEntry disk wanted path entry →
      disk.leadsToDirectory file = false ∧
        ∃ way, way ≠ [] ∧ (∀ name ∈ way, allowed name) ∧ file = path.below way := by
  induction proper with
  | file content modified =>
      intro path file met
      cases met
  | sealed modified =>
      intro path file met
      cases met
  | link target =>
      intro path file met
      cases met
  | directory access entries distinct named _ ih =>
      intro path file met
      cases listing : disk.listingProblem? path with
      | some problem => simp [walkEntry_of_refused wanted listing] at met
      | none =>
          rw [walkEntry_of_listed wanted listing distinct] at met
          rcases List.mem_append.mp met with here | deeper
          · obtain ⟨found, member, same⟩ := List.mem_map.mp here
            obtain ⟨isEntry, test⟩ := List.mem_filter.mp member
            simp only [isFolder, Bool.and_eq_true, Bool.not_eq_true', Bool.or_eq_false_iff] at test
            cases same
            exact ⟨test.1.2, [found.1], by simp,
              by simpa using named found (mem_byName.mp isEntry), rfl⟩
          · obtain ⟨found, member, metBelow⟩ := List.mem_flatMap.mp deeper
            have isEntry := mem_byName.mp (List.mem_filter.mp member).1
            obtain ⟨isFile, way, _, wayNamed, rfl⟩ := ih found isEntry metBelow
            refine ⟨isFile, found.1 :: way, by simp, ?_, by simp⟩
            simpa using ⟨named found isEntry, wayNamed⟩

theorem mem_files_walkEntry {wanted : Path → Bool} {entry : Entry}
    (proper : entry.IsProper allowed) {path file : Path}
    (met : file ∈ (walkEntry disk wanted path entry).filterMap Scan.fileOf?) :
    ∃ way, way ≠ [] ∧ (∀ name ∈ way, allowed name) ∧ file = path.below way := by
  obtain ⟨sighting, isMet, isFile⟩ := List.mem_filterMap.mp met
  cases sighting with
  | refused place problem => cases isFile
  | file place =>
      cases isFile
      exact (mem_walkEntry proper isMet).2

/-- A walk meets no file twice: the way to a file tells by which name it was reached. -/
theorem nodup_files_walkEntry (wanted : Path → Bool) {entry : Entry}
    (proper : entry.IsProper allowed) (path : Path) :
    ((walkEntry disk wanted path entry).filterMap Scan.fileOf?).Nodup := by
  induction proper generalizing path with
  | file content modified =>
      rw [walkEntry_of_not_directory _ _ rfl]
      exact List.nodup_nil
  | sealed modified =>
      rw [walkEntry_of_not_directory _ _ rfl]
      exact List.nodup_nil
  | link target =>
      rw [walkEntry_of_not_directory _ _ rfl]
      exact List.nodup_nil
  | directory access entries distinct named proper ih =>
      cases listing : disk.listingProblem? path with
      | some problem =>
          rw [files_walkEntry_of_refused wanted listing]
          exact List.nodup_nil
      | none =>
          have metBelow {found : List Char × Entry} (isEntry : found ∈ byName entries) {file : Path}
              (met : file ∈ (walkEntry disk wanted (path.child found.1) found.2).filterMap
                Scan.fileOf?) : ∃ way, way ≠ [] ∧ file = path.below (found.1 :: way) := by
            obtain ⟨way, ne_nil, -, rfl⟩ :=
              mem_files_walkEntry (proper found (mem_byName.mp isEntry)) met
            exact ⟨way, ne_nil, Path.below_child path found.1 way⟩
          rw [files_walkEntry_of_listed wanted listing distinct]
          refine List.Nodup.append ?_ (List.nodup_flatMap.mpr ⟨?_, ?_⟩) ?_
          · refine List.pairwise_map.mpr (((distinct_byName distinct).filter _).imp ?_)
            intro first second differ same
            rw [Path.child_eq_below, Path.child_eq_below, Path.below_inj] at same
            exact differ (List.cons.inj same).1
          · intro found member
            exact ih found (mem_byName.mp (List.mem_of_mem_filter member)) _
          · refine ((distinct_byName distinct).filter _).imp_of_mem ?_
            intro first second isFirst isSecond differ file metFirst metSecond
            obtain ⟨way, -, rfl⟩ := metBelow (List.mem_of_mem_filter isFirst) metFirst
            obtain ⟨otherWay, -, same⟩ := metBelow (List.mem_of_mem_filter isSecond) metSecond
            exact differ (List.cons.inj (Path.below_inj.mp same)).1
          · -- A file of the directory has one name on its way, one further down has more.
            intro file here deeper
            obtain ⟨found, -, rfl⟩ := List.mem_map.mp here
            obtain ⟨below, member, met⟩ := List.mem_flatMap.mp deeper
            obtain ⟨way, ne_nil, same⟩ := metBelow (List.mem_of_mem_filter member) met
            rw [Path.child_eq_below, Path.below_inj] at same
            exact ne_nil (List.cons.inj same).2.symm

/-- A walk asks only for paths below its directory. -/
theorem walkEntry_congr {wanted asked : Path → Bool} {entry : Entry}
    (proper : entry.IsProper allowed) :
    ∀ {path : Path}, (∀ way, wanted (path.below way) = asked (path.below way)) →
      walkEntry disk wanted path entry = walkEntry disk asked path entry := by
  induction proper with
  | file content modified => exact fun _ => rfl
  | sealed modified => exact fun _ => rfl
  | link target => exact fun _ => rfl
  | directory access entries distinct named proper ih =>
      intro path agree
      cases listing : disk.listingProblem? path with
      | some problem => rw [walkEntry_of_refused wanted listing, walkEntry_of_refused asked listing]
      | none =>
          have agreeAt (found : List Char × Entry) :
              wanted (path.child found.1) = asked (path.child found.1) := agree [found.1]
          rw [walkEntry_of_listed wanted listing distinct,
            walkEntry_of_listed asked listing distinct]
          simp only [agreeAt]
          congr 1
          refine List.flatMap_congr fun found member => ?_
          have isEntry := mem_byName.mp (List.mem_of_mem_filter member)
          apply ih found isEntry
          intro way
          simpa only [Path.below_child] using agree (found.1 :: way)

theorem sizeOf_lt_of_mem_entries {entry : Entry} {found : List Char × Entry}
    (member : found ∈ entry.entries) : sizeOf found.2 < sizeOf entry := by
  cases entry with
  | file content modified => simp [Entry.entries] at member
  | sealed modified => simp [Entry.entries] at member
  | link target => simp [Entry.entries] at member
  | directory access entries =>
      have smaller := List.sizeOf_lt_of_mem member
      cases found
      simp_all [Entry.entries]
      omega

/-- All files of a tree, as far as its directories can be listed: those of a directory in
the order of their names, then those below its directories in the order of their names.  A
link is a file unless it leads to a directory, and is never entered. -/
def filesBelow (disk : Disk) (path : Path) (entry : Entry) : List Path :=
  if (disk.listingProblem? path).isSome then []
  else
    ((byName entry.entries).filter fun found => !disk.isFolder path found).map
      (fun found => path.child found.1) ++
    (byName entry.entries).attach.flatMap fun ⟨found, _⟩ =>
      filesBelow disk (path.child found.1) found.2
termination_by entry
decreasing_by
  rename_i member
  exact sizeOf_lt_of_mem_entries (mem_byName.mp member)

theorem filesBelow_eq (disk : Disk) (path : Path) (entry : Entry) :
    filesBelow disk path entry =
      if (disk.listingProblem? path).isSome then []
      else
        ((byName entry.entries).filter fun found => !disk.isFolder path found).map
          (fun found => path.child found.1) ++
        (byName entry.entries).flatMap fun found =>
          filesBelow disk (path.child found.1) found.2 := by
  have each : (byName entry.entries).flatMap (fun found =>
        filesBelow disk (path.child found.1) found.2) =
      (byName entry.entries).attach.flatMap fun found =>
        filesBelow disk (path.child found.1.1) found.1.2 := by
    conv_lhs => rw [← List.attach_map_subtype_val (byName entry.entries), List.flatMap_map]
  rw [filesBelow, each]

theorem filesBelow_of_listed {path : Path} (listed : disk.listingProblem? path = none)
    (access : Access) (entries : List (List Char × Entry)) :
    filesBelow disk path (.directory access entries) =
      ((byName entries).filter fun found => !disk.isFolder path found).map
        (fun found => path.child found.1) ++
      (byName entries).flatMap fun found => filesBelow disk (path.child found.1) found.2 := by
  rw [filesBelow_eq, listed]
  rfl

theorem filesBelow_of_refused {path : Path} {problem : DiskProblem}
    (refused : disk.listingProblem? path = some problem) (entry : Entry) :
    filesBelow disk path entry = [] := by
  rw [filesBelow_eq, refused]
  rfl

theorem filesBelow_of_not_directory (path : Path) {entry : Entry}
    (notDirectory : entry.isDirectory = false) : filesBelow disk path entry = [] := by
  have noEntries : entry.entries = [] := by
    cases entry with
    | file content modified => rfl
    | sealed modified => rfl
    | link target => rfl
    | directory access entries => cases notDirectory
  rw [filesBelow_eq, noEntries]
  simp [byName]

/-- What adds nothing may be left out. -/
theorem flatMap_filter_of_nil {β : Type} {test : α → Bool} {each : α → List β} {items : List α}
    (nothing : ∀ item ∈ items, test item = false → each item = []) :
    (items.filter test).flatMap each = items.flatMap each := by
  induction items with
  | nil => rfl
  | cons item rest ih =>
      have later := ih fun other member => nothing other (List.mem_cons_of_mem _ member)
      cases holds : test item with
      | true => simp [holds, later]
      | false => simp [holds, later, nothing item List.mem_cons_self holds]

/-- A walk that wants everything meets all files. -/
theorem files_walkEntry_true {entry : Entry} (proper : entry.IsProper allowed) (path : Path) :
    (walkEntry disk (fun _ => true) path entry).filterMap Scan.fileOf? =
      filesBelow disk path entry := by
  induction proper generalizing path with
  | file content modified =>
      rw [walkEntry_of_not_directory _ _ rfl, filesBelow_of_not_directory _ rfl]
      rfl
  | sealed modified =>
      rw [walkEntry_of_not_directory _ _ rfl, filesBelow_of_not_directory _ rfl]
      rfl
  | link target =>
      rw [walkEntry_of_not_directory _ _ rfl, filesBelow_of_not_directory _ rfl]
      rfl
  | directory access entries distinct _ _ ih =>
      cases listing : disk.listingProblem? path with
      | some problem =>
          rw [files_walkEntry_of_refused _ listing, filesBelow_of_refused listing]
      | none =>
          have enters (found : List Char × Entry) (member : found ∈ byName entries) :
              ((walkEntry disk (fun _ => true) (path.child found.1) found.2).filterMap
                Scan.fileOf?) = filesBelow disk (path.child found.1) found.2 :=
            ih found (mem_byName.mp member) _
          rw [files_walkEntry_of_listed _ listing distinct, filesBelow_of_listed listing,
            ← List.flatMap_congr enters]
          simp only [Bool.and_true]
          congr 1
          refine flatMap_filter_of_nil fun found _ notDirectory => ?_
          rw [walkEntry_of_not_directory _ _ notDirectory]
          rfl

theorem mem_filesBelow {entry : Entry} (proper : entry.IsProper allowed) {path file : Path}
    (met : file ∈ filesBelow disk path entry) :
    ∃ way, way ≠ [] ∧ (∀ name ∈ way, allowed name) ∧ file = path.below way := by
  rw [← files_walkEntry_true proper] at met
  exact mem_files_walkEntry proper met

/-- Below a path, nothing holds that lies below something unwanted, and nothing holds that
is unwanted itself. -/
def Covers (allowed : List Char → Prop) (wanted holds : Path → Bool) (path : Path) : Prop :=
  ∀ way more : List (List Char), way ≠ [] → (∀ name ∈ way ++ more, allowed name) →
    holds (path.below (way ++ more)) → wanted (path.below way)

section Covers

variable {wanted holds : Path → Bool} {path : Path} {name : List Char}

theorem Covers.child (covers : Covers allowed wanted holds path) (named : allowed name) :
    Covers allowed wanted holds (path.child name) := by
  intro way more _ allNamed isHeld
  have wantsBelow := covers (name :: way) more (by simp)
    (by simpa using ⟨named, by simpa using allNamed⟩)
  simpa using wantsBelow (by simpa using isHeld)

theorem Covers.wants_child (covers : Covers allowed wanted holds path) (named : allowed name)
    {way : List (List Char)} (wayNamed : ∀ name ∈ way, allowed name)
    (isHeld : holds ((path.child name).below way)) : wanted (path.child name) := by
  rw [Path.child_eq_below]
  exact covers [name] way (by simp) (by simpa using ⟨named, wayNamed⟩) (by simpa using isHeld)

/-- Leaving out unwanted files and directories loses nothing that holds, when nothing
below what is unwanted holds. -/
theorem filter_files_walkEntry {entry : Entry} (proper : entry.IsProper allowed) :
    ∀ {path : Path}, Covers allowed wanted holds path →
      ((walkEntry disk wanted path entry).filterMap Scan.fileOf?).filter holds =
        (filesBelow disk path entry).filter holds := by
  induction proper with
  | file content modified =>
      intro path _
      rw [walkEntry_of_not_directory _ _ rfl, filesBelow_of_not_directory _ rfl]
      rfl
  | sealed modified =>
      intro path _
      rw [walkEntry_of_not_directory _ _ rfl, filesBelow_of_not_directory _ rfl]
      rfl
  | link target =>
      intro path _
      rw [walkEntry_of_not_directory _ _ rfl, filesBelow_of_not_directory _ rfl]
      rfl
  | directory access entries distinct named proper ih =>
      intro path covers
      cases listing : disk.listingProblem? path with
      | some problem =>
          rw [files_walkEntry_of_refused _ listing, filesBelow_of_refused listing]
      | none =>
          have enters (found : List Char × Entry) (member : found ∈ byName entries) :
              ((walkEntry disk wanted (path.child found.1) found.2).filterMap
                  Scan.fileOf?).filter holds =
                (filesBelow disk (path.child found.1) found.2).filter holds :=
            ih found (mem_byName.mp member) (covers.child (named found (mem_byName.mp member)))
          rw [files_walkEntry_of_listed _ listing distinct, filesBelow_of_listed listing,
            List.filter_append, List.filter_append]
          congr 1
          · -- An unwanted file does not hold itself.
            rw [List.filter_map, List.filter_map, List.filter_filter, List.filter_filter]
            congr 1
            refine List.filter_congr fun found member => ?_
            cases isHeld : holds (path.child found.1) with
            | false => simp [isHeld]
            | true =>
                have isHeldBelow : holds ((path.child found.1).below []) := by
                  rwa [Path.below_nil]
                have isWanted := covers.wants_child (named found (mem_byName.mp member))
                  (List.forall_mem_nil allowed) isHeldBelow
                simp [isHeld, isWanted]
          · -- Nothing below an unwanted directory holds, and what is no directory has
            -- nothing below it.
            rw [List.filter_flatMap, List.filter_flatMap, ← List.flatMap_congr enters]
            refine flatMap_filter_of_nil fun found member notEntered => ?_
            rw [enters found member, List.filter_eq_nil_iff]
            intro file isBelow isHeld
            cases isDirectory : found.2.isDirectory with
            | false =>
                rw [filesBelow_of_not_directory _ isDirectory] at isBelow
                cases isBelow
            | true =>
                have isEntry := mem_byName.mp member
                obtain ⟨way, _, wayNamed, rfl⟩ := mem_filesBelow (proper found isEntry) isBelow
                have isWanted := covers.wants_child (named found isEntry) wayNamed isHeld
                simp [isDirectory, isWanted] at notEntered

end Covers

theorem leadsToDirectory_eq_of_reordered (same : disk.root.Reordered other.root)
    (proper : disk.root.IsProper allowed) (path : Path) :
    disk.leadsToDirectory path = other.leadsToDirectory path := by
  rw [leadsToDirectory, leadsToDirectory, isDirectory_eq_of_reordered same proper]

theorem listingProblem?_eq_of_reordered (same : disk.root.Reordered other.root)
    (proper : disk.root.IsProper allowed) (path : Path) :
    disk.listingProblem? path = other.listingProblem? path := by
  unfold listingProblem?
  rcases entryAt_of_reordered same proper path with
    ⟨problem, first, second⟩ | ⟨entry, otherEntry, first, second, sameEntry⟩
  · rw [first, second]
  · rw [first, second]
    dsimp only
    rw [sameEntry.isDirectory_eq, sameEntry.isListable_eq]

/-- A walk meets the same in the same order, however the directories list their
names. -/
theorem walkEntry_eq_of_reordered {entry otherEntry : Entry} (wanted : Path → Bool)
    (sameKinds : ∀ path, disk.leadsToDirectory path = other.leadsToDirectory path)
    (sameListings : ∀ path, disk.listingProblem? path = other.listingProblem? path)
    (same : entry.Reordered otherEntry) (proper : entry.IsProper allowed) (path : Path) :
    walkEntry disk wanted path entry = walkEntry other wanted path otherEntry := by
  induction same generalizing path with
  | file content modified => rfl
  | sealed modified => rfl
  | link target => rfl
  | directory access both others below order ih =>
      cases listing : disk.listingProblem? path with
      | some problem =>
          rw [walkEntry_of_refused wanted listing,
            walkEntry_of_refused wanted ((sameListings path).symm.trans listing)]
      | none =>
          have distinct : ((both.map fun found => (found.1, found.2.1)).map (·.1)).Nodup :=
            proper.distinct
          have otherDistinct : (others.map (·.1)).Nodup :=
            ((Entry.Reordered.directory access both others below order).proper proper).distinct
          have listed : byName (both.map fun found => (found.1, found.2.1)) =
              (byName both).map fun found => (found.1, found.2.1) :=
            byName_map (fun found => (found.1, found.2.1)) (fun _ => rfl) both
          have otherListed : byName others =
              (byName both).map fun found => (found.1, found.2.2) := by
            rw [byName_eq_of_perm order otherDistinct]
            exact byName_map (fun found => (found.1, found.2.2)) (fun _ => rfl) both
          rw [walkEntry_of_listed wanted listing distinct,
            walkEntry_of_listed wanted ((sameListings path).symm.trans listing) otherDistinct,
            listed, otherListed]
          simp only [List.filter_map, List.map_map, List.flatMap_map, Function.comp_def]
          congr 1
          · -- What counts as a directory on one disk does so on the other.
            congr 1
            refine List.filter_congr fun found member => ?_
            simp only [isFolder, sameKinds, (below found (mem_byName.mp member)).isDirectory_eq]
          have sameDirectories : (byName both).filter (fun found =>
                found.2.1.isDirectory && wanted (path.child found.1)) =
              (byName both).filter fun found =>
                found.2.2.isDirectory && wanted (path.child found.1) :=
            List.filter_congr fun found member => by
              rw [(below found (mem_byName.mp member)).isDirectory_eq]
          rw [sameDirectories]
          refine List.flatMap_congr fun found member => ?_
          have isBoth := mem_byName.mp (List.mem_filter.mp member).1
          exact ih found isBoth (proper.of_mem (List.mem_map_of_mem isBoth)).2 _

theorem walk_eq_of_reordered (wanted : Path → Bool) (same : disk.root.Reordered other.root)
    (proper : disk.root.IsProper allowed) (path : Path) :
    disk.walk wanted path = other.walk wanted path := by
  unfold walk
  rcases entryAt_of_reordered same proper path with
    ⟨problem, first, second⟩ | ⟨entry, otherEntry, first, second, sameEntry⟩
  · rw [first, second]
  · rw [first, second]
    exact walkEntry_eq_of_reordered wanted (leadsToDirectory_eq_of_reordered same proper)
      (listingProblem?_eq_of_reordered same proper) sameEntry (proper_of_entryAt proper first) path

end ComponentAtlas.Disk
