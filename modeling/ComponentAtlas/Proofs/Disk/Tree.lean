/-
Module: ComponentAtlas.Proofs.Disk.Tree
Purpose: Disks as a machine keeps them, what a path finds there, and disks that
  differ only in the order of their listings.
Main exports:
  Entry.IsProper, Entry.Reordered, Disk.IsSound, Disk.Leads, allowed_of_entryAt,
  isDirectory_eq, Disk.versionAt?, versionAt?_of_modified, entryAt_of_reordered
-/
import Mathlib.Data.List.Nodup
import Mathlib.Data.Option.Basic
import ComponentAtlas.Proofs.Fallible
import ComponentAtlas.Proofs.Path.Names

namespace ComponentAtlas

/-- A tree in which the names of a directory are distinct and all of them allowed. -/
inductive Entry.IsProper (allowed : List Char → Prop) : Entry → Prop where
  | file (content : List UInt8) (modified : Timestamp) :
      IsProper allowed (.file content modified)
  | sealed (modified : Timestamp) : IsProper allowed (.sealed modified)
  | link (target : Path) : IsProper allowed (.link target)
  | directory (access : Access) (entries : List (List Char × Entry))
      (distinct : (entries.map (·.1)).Nodup)
      (named : ∀ found ∈ entries, allowed found.1)
      (proper : ∀ found ∈ entries, IsProper allowed found.2) :
      IsProper allowed (.directory access entries)

/-- Two trees that hold the same, but for the order in which directories list their
names. -/
inductive Entry.Reordered : Entry → Entry → Prop where
  | file (content : List UInt8) (modified : Timestamp) :
      Reordered (.file content modified) (.file content modified)
  | sealed (modified : Timestamp) : Reordered (.sealed modified) (.sealed modified)
  | link (target : Path) : Reordered (.link target) (.link target)
  | directory (access : Access) (both : List (List Char × Entry × Entry))
      (others : List (List Char × Entry))
      (below : ∀ found ∈ both, Reordered found.2.1 found.2.2)
      (order : others.Perm (both.map fun found => (found.1, found.2.2))) :
      Reordered (.directory access (both.map fun found => (found.1, found.2.1)))
        (.directory access others)

/-- The version of a file: its content, if that may be read, and the time of its last
change. -/
def Entry.version? : Entry → Option (Option (List UInt8) × Timestamp)
  | .file content modified => some (some content, modified)
  | .sealed modified => some (none, modified)
  | .link _ | .directory _ _ => none

/-- The version of the file at a path. -/
def Disk.versionAt? (disk : Disk) (path : Path) : Option (Option (List UInt8) × Timestamp) :=
  match disk.entryAt path with
  | .ok entry => entry.version?
  | .error _ => none

/-- A disk as a machine keeps it: a tree of directories with names, in which the times
of files count from universal time. -/
structure Disk.IsSound (disk : Disk) : Prop where
  isDirectory : disk.root.isDirectory
  proper : disk.root.IsProper Path.IsName
  universal : ∀ {path : Path} {content : Option (List UInt8)} {modified : Timestamp},
    disk.versionAt? path = some (content, modified) → modified.offset = some 0

namespace Entry

theorem mem_of_child? {entry below : Entry} {name : List Char}
    (child : entry.child? name = some below) : (name, below) ∈ entry.entries := by
  obtain ⟨found, isFound, rfl⟩ := Option.map_eq_some_iff.mp child
  have sameName : found.1 = name := by simpa using List.find?_some isFound
  subst sameName
  exact List.mem_of_find?_eq_some isFound

theorem isDirectory_of_child? {entry below : Entry} {name : List Char}
    (child : entry.child? name = some below) : entry.isDirectory := by
  cases entry with
  | directory access entries => rfl
  | file content modified => simp [child?, entries] at child
  | sealed modified => simp [child?, entries] at child
  | link target => simp [child?, entries] at child

theorem isDirectory_of_isSearchable {entry : Entry} (isSearchable : entry.isSearchable) :
    entry.isDirectory := by
  cases entry with
  | directory access entries => rfl
  | file content modified => cases isSearchable
  | sealed modified => cases isSearchable
  | link target => cases isSearchable

theorem at?_append (entry : Entry) (way more : List (List Char)) :
    entry.at? (way ++ more) = (entry.at? way).bind fun below => below.at? more := by
  induction way generalizing entry with
  | nil => rfl
  | cons name rest ih =>
      simp only [List.cons_append, at?, ih, Option.bind_assoc]

namespace IsProper

variable {allowed : List Char → Prop} {entry : Entry}

theorem distinct (proper : entry.IsProper allowed) : (entry.entries.map (·.1)).Nodup := by
  cases proper with
  | directory access entries distinct named proper => exact distinct
  | file content modified => simp [entries]
  | sealed modified => simp [entries]
  | link target => simp [entries]

theorem of_mem (proper : entry.IsProper allowed) {found : List Char × Entry}
    (member : found ∈ entry.entries) : allowed found.1 ∧ found.2.IsProper allowed := by
  cases proper with
  | directory access entries distinct named proper =>
      exact ⟨named found member, proper found member⟩
  | file content modified => simp [entries] at member
  | sealed modified => simp [entries] at member
  | link target => simp [entries] at member

theorem of_at? (proper : entry.IsProper allowed) {way : List (List Char)} {below : Entry}
    (found : entry.at? way = some below) : below.IsProper allowed := by
  induction way generalizing entry with
  | nil =>
      cases found
      exact proper
  | cons name rest ih =>
      obtain ⟨next, child, later⟩ := Option.bind_eq_some_iff.mp found
      exact ih (proper.of_mem (mem_of_child? child)).2 later

theorem mono {other : List Char → Prop} (weaker : ∀ name, allowed name → other name)
    (proper : entry.IsProper allowed) : entry.IsProper other := by
  induction proper with
  | file content modified => exact .file content modified
  | sealed modified => exact .sealed modified
  | link target => exact .link target
  | directory access entries distinct named _ ih =>
      exact .directory access entries distinct
        (fun found member => weaker found.1 (named found member)) ih

end IsProper

end Entry

namespace Disk

/-- The entry of a place lets a name be looked up in it: it is a directory that may be
searched, and the name is one that a directory can hold. -/
structure LetsThrough (entry : Entry) (name : List Char) : Prop where
  isSearchable : entry.isSearchable
  ne_above : name ≠ Path.above
  isShort : Path.isLongName name = false

/-- What it means that a way leads to a place.  `here` are the names up to the place
that was reached, in reverse order, and `links` is the number of links that may still
be followed. -/
inductive Leads (disk : Disk) :
    Nat → List (List Char) → List (List Char) → List (List Char) → Prop where
  | arrived (links : Nat) (here : List (List Char)) : Leads disk links here [] here.reverse
  | up {links : Nat} {here rest found : List (List Char)} {entry : Entry}
      (atHere : disk.at? here.reverse = some entry) (isSearchable : entry.isSearchable)
      (later : Leads disk links here.tail rest found) :
      Leads disk links here (Path.above :: rest) found
  | follow {fewer : Nat} {here rest found : List (List Char)} {name : List Char}
      {entry : Entry} {target : Path} (atHere : disk.at? here.reverse = some entry)
      (lets : LetsThrough entry name) (child : entry.child? name = some (.link target))
      (later : Leads disk fewer (if target.isAbsolute then [] else here)
        (target.parts ++ rest) found) :
      Leads disk (fewer + 1) here (name :: rest) found
  | enter {links : Nat} {here rest found : List (List Char)} {name : List Char}
      {entry below : Entry} (atHere : disk.at? here.reverse = some entry)
      (lets : LetsThrough entry name) (child : entry.child? name = some below)
      (notLink : ∀ target, below ≠ .link target)
      (later : Leads disk links (name :: here) rest found) :
      Leads disk links here (name :: rest) found

variable {allowed : List Char → Prop} {disk : Disk}

/-- A way that was found leads to its place.  The recursion goes down in the number of
links and, for the same number, in the way. -/
theorem leads_of_locateFrom (links : Nat) :
    ∀ {here way found : List (List Char)}, locateFrom disk links here way = .ok found →
      Leads disk links here way found := by
  induction links using Nat.strongRecOn with
  | ind links fewerLinks =>
      intro here way found located
      induction way generalizing here with
      | nil =>
          rw [locateFrom] at located
          cases located
          exact .arrived links here
      | cons name rest shorter =>
          rw [locateFrom] at located
          split at located
          · cases located
          rename_i entry atHere
          split at located
          · cases located
          split at located
          · cases located
          rename_i isSearchable
          have isSearchable : entry.isSearchable := by simpa using isSearchable
          split at located
          · rename_i isAbove
            subst isAbove
            exact .up atHere isSearchable (shorter located)
          rename_i ne_above
          split at located
          · cases located
          rename_i isShort
          have lets : LetsThrough entry name := ⟨isSearchable, ne_above, by simpa using isShort⟩
          split at located
          · cases located
          · rename_i target child
            split at located
            · cases located
            · rename_i fewer
              exact .follow atHere lets child
                (fewerLinks fewer (Nat.lt_succ_self fewer) located)
          · rename_i below notLink child
            exact .enter atHere lets child notLink (shorter located)

theorem locateFrom_of_leads {links : Nat} {here way found : List (List Char)}
    (leads : Leads disk links here way found) :
    locateFrom disk links here way = .ok found := by
  induction leads with
  | arrived links here => rw [locateFrom]
  | up atHere isSearchable _ ih =>
      rw [locateFrom]
      simp [atHere, Entry.isDirectory_of_isSearchable isSearchable, isSearchable, ih]
  | follow atHere lets child _ ih =>
      rw [locateFrom]
      simp [atHere, Entry.isDirectory_of_child? child, lets.isSearchable, lets.ne_above,
        lets.isShort, child, ih]
  | enter atHere lets child notLink _ ih =>
      rw [locateFrom]
      simp [atHere, Entry.isDirectory_of_child? child, lets.isSearchable, lets.ne_above,
        lets.isShort, child, ih]

theorem locate_eq_ok_iff {path : Path} {found : List (List Char)} :
    disk.locate path = .ok found ↔
      path.isLong = false ∧ Leads disk maxLinks [] path.parts found := by
  have isPlace : locateFrom disk maxLinks [] path.parts = .ok found ↔
      Leads disk maxLinks [] path.parts found :=
    ⟨leads_of_locateFrom maxLinks, locateFrom_of_leads⟩
  cases isLong : path.isLong <;> simp [locate, isLong, isPlace]

/-- Every name on a way that leads somewhere stands on the disk.  The names of a link
that is followed come in front of those that are still to go, so these are met too. -/
theorem allowed_of_leads (proper : disk.root.IsProper allowed) {links : Nat}
    {here way found : List (List Char)} (leads : Leads disk links here way found) :
    ∀ name ∈ way, name ≠ Path.above → allowed name := by
  induction leads with
  | arrived => simp
  | up _ _ _ ih =>
      intro name member ne_above
      rcases List.mem_cons.mp member with rfl | later
      · exact absurd rfl ne_above
      · exact ih name later ne_above
  | follow atHere _ child _ ih =>
      intro name member ne_above
      rcases List.mem_cons.mp member with rfl | later
      · exact ((proper.of_at? atHere).of_mem (Entry.mem_of_child? child)).1
      · exact ih name (List.mem_append_right _ later) ne_above
  | enter atHere _ child _ _ ih =>
      intro name member ne_above
      rcases List.mem_cons.mp member with rfl | later
      · exact ((proper.of_at? atHere).of_mem (Entry.mem_of_child? child)).1
      · exact ih name later ne_above

/-- The place at the end of a way is no link: links on the way were followed, and above
a name there is a directory. -/
theorem notLink_of_leads {links : Nat} {here way found : List (List Char)}
    (leads : Leads disk links here way found)
    (rootIsDirectory : disk.root.isDirectory)
    (notLink : ∀ target, disk.at? here.reverse ≠ some (.link target)) :
    ∀ target, disk.at? found ≠ some (.link target) := by
  have rootNotLink : ∀ target, disk.at? [] ≠ some (.link target) := by
    intro target isLink
    have root : disk.root = .link target := by simpa [at?, Entry.at?] using isLink
    simp [root, Entry.isDirectory] at rootIsDirectory
  induction leads with
  | arrived => exact notLink
  | @up links here rest found entry atHere _ _ ih =>
      refine ih ?_
      cases here with
      | nil => exact rootNotLink
      | cons name outer =>
          intro target isLink
          simp only [List.tail_cons] at isLink
          rw [List.reverse_cons, at?, Entry.at?_append] at atHere
          rw [at?] at isLink
          simp [isLink, Entry.at?, Entry.child?, Entry.entries] at atHere
  | @follow fewer here rest found name entry target _ _ _ _ ih =>
      refine ih ?_
      split
      · exact rootNotLink
      · exact notLink
  | enter atHere _ child belowNotLink _ ih =>
      refine ih ?_
      intro target isLink
      rw [at?] at atHere
      rw [List.reverse_cons, at?, Entry.at?_append, atHere] at isLink
      simp only [Option.bind_some, Entry.at?, child, Option.some.injEq] at isLink
      exact belowNotLink target isLink

theorem standing_eq_ok_iff {names : List (List Char)} {entry : Entry} :
    disk.standing names = .ok entry ↔ disk.at? names = some entry := by
  unfold standing
  cases disk.at? names <;> simp

/-- What a path leads to stands on the disk. -/
theorem exists_at?_of_entryAt {path : Path} {entry : Entry}
    (found : disk.entryAt path = .ok entry) :
    ∃ way, disk.locate path = .ok way ∧ disk.at? way = some entry := by
  obtain ⟨way, located, stands⟩ := bind_eq_ok.mp found
  exact ⟨way, located, standing_eq_ok_iff.mp stands⟩

/-- The names of a path that leads somewhere stand on the disk. -/
theorem allowed_of_entryAt (proper : disk.root.IsProper allowed) {path : Path} {entry : Entry}
    (found : disk.entryAt path = .ok entry) (free : Path.above ∉ path.parts) :
    ∀ name ∈ path.parts, allowed name := by
  intro name member
  obtain ⟨way, located, _⟩ := exists_at?_of_entryAt found
  exact allowed_of_leads proper (locate_eq_ok_iff.mp located).2 name member
    fun isAbove => free (isAbove ▸ member)

theorem proper_of_entryAt (proper : disk.root.IsProper allowed) {path : Path} {entry : Entry}
    (found : disk.entryAt path = .ok entry) : entry.IsProper allowed := by
  obtain ⟨way, _, atWay⟩ := exists_at?_of_entryAt found
  exact proper.of_at? atWay

/-- What a path leads to is no link. -/
theorem notLink_of_entryAt (rootIsDirectory : disk.root.isDirectory) {path : Path}
    {entry : Entry} (found : disk.entryAt path = .ok entry) :
    ∀ target, entry ≠ .link target := by
  intro target isLink
  obtain ⟨way, located, atWay⟩ := exists_at?_of_entryAt found
  refine notLink_of_leads (locate_eq_ok_iff.mp located).2 rootIsDirectory ?_ target
    (isLink ▸ atWay)
  intro other isRoot
  have root : disk.root = .link other := by simpa [at?, Entry.at?] using isRoot
  simp [root, Entry.isDirectory] at rootIsDirectory

/-!
Asking what there is at a path has an answer unless the way to it is not told: a directory
on it may not be searched, or a name or the path as a whole is too long.
-/

theorem isDirectory_eq {path : Path} (named : path.HasNames) :
    disk.isDirectory path =
      match disk.entryAt path with
      | .ok entry => .ok entry.isDirectory
      | .error problem =>
        if problem.isAbsence then .ok false else .error (.disk problem path.text) := by
  rw [isDirectory, presence, named.not_hasNull]
  cases disk.entryAt path with
  | error problem => cases isAbsence : problem.isAbsence <;> simp [presenceOf, isAbsence, Except.map]
  | ok entry => cases isDirectory : entry.isDirectory <;> simp [presenceOf, isDirectory, Except.map]

theorem leadsToDirectory_eq {path : Path} (named : path.HasNames) :
    disk.leadsToDirectory path =
      match disk.entryAt path with
      | .ok entry => entry.isDirectory
      | .error _ => false := by
  rw [leadsToDirectory, isDirectory_eq named]
  cases disk.entryAt path with
  | error problem => cases isAbsence : problem.isAbsence <;> simp [isAbsence]
  | ok entry => rfl

theorem leadsToDirectory_of_isDirectory {path : Path} {answer : Bool}
    (told : disk.isDirectory path = .ok answer) : disk.leadsToDirectory path = answer := by
  rw [leadsToDirectory, told]

/-- Nothing, or something else than a directory, is found at a path that leads to none. -/
theorem not_leadsToDirectory_of_entryAt {path : Path} {answer : Except DiskProblem Entry}
    (named : path.HasNames) (found : disk.entryAt path = answer)
    (notDirectory : ∀ entry, answer = .ok entry → entry.isDirectory = false) :
    disk.leadsToDirectory path = false := by
  rw [leadsToDirectory_eq named, found]
  cases answer with
  | error problem => rfl
  | ok entry => exact notDirectory entry rfl

/-- A date is the time itself. -/
theorem dated_eq_ok_iff {time date : Timestamp} :
    dated time = .ok date ↔ time.isDate ∧ date = time := by
  unfold dated
  split
  · rename_i isDate
    simp [isDate, eq_comm]
  · rename_i noDate
    split <;> simp [noDate]

theorem modified_of_entryAt {path : Path} {content : List UInt8} {modified : Timestamp}
    (found : disk.entryAt path = .ok (.file content modified)) :
    disk.modified path = dated modified := by
  rw [Disk.modified, changedAt, found]
  rfl

/-- A path that has a time and leads to no directory leads to a file of that time. -/
theorem versionAt?_of_changedAt (rootIsDirectory : disk.root.isDirectory) {path : Path}
    (named : path.HasNames) {modified : Timestamp} (isTime : disk.changedAt path = .ok modified)
    (notDirectory : disk.leadsToDirectory path = false) :
    ∃ content, disk.versionAt? path = some (content, modified) := by
  cases found : disk.entryAt path with
  | error problem =>
      simp [changedAt, faultAt, found, bind, Except.bind, Except.mapError] at isTime
  | ok entry =>
      have notLink := notLink_of_entryAt rootIsDirectory found
      simp only [changedAt, faultAt, found, bind, Except.bind, Except.mapError] at isTime
      cases entry with
      | file content time =>
          cases isTime
          exact ⟨some content, by simp [versionAt?, found, Entry.version?]⟩
      | sealed time =>
          cases isTime
          exact ⟨none, by simp [versionAt?, found, Entry.version?]⟩
      | link target => exact absurd rfl (notLink target)
      | directory access entries =>
          simp [leadsToDirectory_eq named, found, Entry.isDirectory] at notDirectory

/-- The date of a file is the time of its version. -/
theorem versionAt?_of_modified (rootIsDirectory : disk.root.isDirectory) {path : Path}
    (named : path.HasNames) {modified : Timestamp} (isTime : disk.modified path = .ok modified)
    (notDirectory : disk.leadsToDirectory path = false) :
    ∃ content, disk.versionAt? path = some (content, modified) := by
  obtain ⟨time, isTime, isDate⟩ := bind_eq_ok.mp isTime
  obtain ⟨-, rfl⟩ := dated_eq_ok_iff.mp isDate
  exact versionAt?_of_changedAt rootIsDirectory named isTime notDirectory

theorem isDate_of_modified {path : Path} {modified : Timestamp}
    (isTime : disk.modified path = .ok modified) : modified.isDate := by
  obtain ⟨time, -, isDate⟩ := bind_eq_ok.mp isTime
  obtain ⟨isDate, rfl⟩ := dated_eq_ok_iff.mp isDate
  exact isDate

/-- What can be read of a file is its content, unless it is sealed. -/
theorem contentAt_of_versionAt? {path : Path} (named : path.HasNames)
    {content : Option (List UInt8)} {modified : Timestamp}
    (version : disk.versionAt? path = some (content, modified)) :
    disk.contentAt path =
      match content with
      | some bytes => .ok (bytes, modified)
      | none => .error (.disk .denied path.text) := by
  unfold versionAt? at version
  split at version
  · rename_i entry found
    cases entry <;> cases version <;>
      simp [contentAt, named.not_hasNull, faultAt, found, bind, Except.bind, Except.mapError]
  · cases version

theorem versionAt?_of_contentAt {path : Path} {content : List UInt8} {modified : Timestamp}
    (isFile : disk.contentAt path = .ok (content, modified)) :
    disk.versionAt? path = some (some content, modified) := by
  unfold contentAt at isFile
  split at isFile
  · cases isFile
  · cases found : disk.entryAt path with
    | error problem => simp [faultAt, found, bind, Except.bind, Except.mapError] at isFile
    | ok entry =>
        simp only [faultAt, found, bind, Except.bind, Except.mapError] at isFile
        cases entry <;> cases isFile
        simp [versionAt?, found, Entry.version?]

end Disk

/-!
Disks whose listings differ only in their order answer every path alike: names in a
directory are distinct, so looking one up does not depend on where it stands.
-/

namespace Entry

theorem child?_eq_some_iff {entry below : Entry} {name : List Char}
    (distinct : (entry.entries.map (·.1)).Nodup) :
    entry.child? name = some below ↔ (name, below) ∈ entry.entries := by
  constructor
  · exact mem_of_child?
  · intro member
    cases found : entry.entries.find? fun found => found.1 = name with
    | none =>
        have other := List.find?_eq_none.mp found (name, below) member
        simp at other
    | some first =>
        have firstMember := List.mem_of_find?_eq_some found
        have firstName : first.1 = name := by simpa using List.find?_some found
        have same : first = (name, below) :=
          List.inj_on_of_nodup_map distinct firstMember member firstName
        simp [child?, found, same]

/-- Related options are both empty or hold related values. -/
private theorem rel_cases {α : Type} {r : α → α → Prop} {left right : Option α}
    (related : Option.Rel r left right) :
    (left = none ∧ right = none) ∨ ∃ a b, left = some a ∧ right = some b ∧ r a b := by
  cases related with
  | none => exact .inl ⟨rfl, rfl⟩
  | some holds => exact .inr ⟨_, _, rfl, rfl, holds⟩

namespace Reordered

variable {entry other : Entry}

theorem isDirectory_eq (same : entry.Reordered other) :
    entry.isDirectory = other.isDirectory := by
  cases same <;> rfl

theorem isListable_eq (same : entry.Reordered other) :
    entry.isListable = other.isListable := by
  cases same <;> rfl

theorem isSearchable_eq (same : entry.Reordered other) :
    entry.isSearchable = other.isSearchable := by
  cases same <;> rfl

theorem proper {allowed : List Char → Prop} (same : entry.Reordered other)
    (proper : entry.IsProper allowed) : other.IsProper allowed := by
  induction same with
  | file content modified => exact .file content modified
  | sealed modified => exact .sealed modified
  | link target => exact .link target
  | directory access both others _ order ih =>
      have names : (others.map (·.1)).Perm (both.map (·.1)) := by
        simpa [Function.comp_def] using order.map (·.1)
      have member {found : List Char × Entry} (isOther : found ∈ others) :
          ∃ pair ∈ both, found = (pair.1, pair.2.2) := by
        simpa [eq_comm] using order.subset isOther
      refine .directory access others ?_ ?_ ?_
      · rw [names.nodup_iff]
        simpa [Function.comp_def, entries] using proper.distinct
      · intro found isOther
        obtain ⟨pair, isPair, rfl⟩ := member isOther
        exact (proper.of_mem (List.mem_map_of_mem isPair)).1
      · intro found isOther
        obtain ⟨pair, isPair, rfl⟩ := member isOther
        exact ih pair isPair (proper.of_mem (List.mem_map_of_mem isPair)).2

theorem child? {allowed : List Char → Prop} (same : entry.Reordered other)
    (proper : entry.IsProper allowed) (name : List Char) :
    Option.Rel Reordered (entry.child? name) (other.child? name) := by
  have otherProper := same.proper proper
  cases same with
  | file content modified => exact .none
  | sealed modified => exact .none
  | link target => exact .none
  | directory access both others below order =>
      have first {next : Entry} : Entry.child? _ name = some next ↔ (name, next) ∈ entries _ :=
        child?_eq_some_iff proper.distinct
      have second {next : Entry} : Entry.child? _ name = some next ↔ (name, next) ∈ entries _ :=
        child?_eq_some_iff otherProper.distinct
      simp only [entries] at first second
      cases found : Entry.child? (.directory access
          (both.map fun found => (found.1, found.2.1))) name with
      | some next =>
          obtain ⟨pair, isPair, same⟩ := List.mem_map.mp (first.mp found)
          simp only [Prod.mk.injEq] at same
          obtain ⟨rfl, rfl⟩ := same
          have isOther := second.mpr
            (order.symm.subset (List.mem_map_of_mem (f := fun found => (found.1, found.2.2)) isPair))
          rw [isOther]
          exact .some (below pair isPair)
      | none =>
          cases otherFound : Entry.child? (.directory access others) name with
          | none => exact .none
          | some next =>
              obtain ⟨pair, isPair, same⟩ := List.mem_map.mp (order.subset (second.mp otherFound))
              simp only [Prod.mk.injEq] at same
              obtain ⟨rfl, rfl⟩ := same
              have isFirst := first.mpr
                (List.mem_map_of_mem (f := fun found => (found.1, found.2.1)) isPair)
              rw [found] at isFirst
              cases isFirst

theorem at? {allowed : List Char → Prop} (same : entry.Reordered other)
    (proper : entry.IsProper allowed) (way : List (List Char)) :
    Option.Rel Reordered (entry.at? way) (other.at? way) := by
  induction way generalizing entry other with
  | nil => exact .some same
  | cons name rest ih =>
      rcases rel_cases (same.child? proper name) with
        ⟨first, second⟩ | ⟨below, otherBelow, first, second, sameBelow⟩
      · simp only [Entry.at?, first, second]
        exact .none
      · simp only [Entry.at?, first, second]
        exact ih sameBelow (proper.of_mem (mem_of_child? first)).2

end Reordered

end Entry

namespace Disk

variable {allowed : List Char → Prop} {disk other : Disk}

theorem locateFrom_eq_of_reordered (same : disk.root.Reordered other.root)
    (proper : disk.root.IsProper allowed) (links : Nat) :
    ∀ (here way : List (List Char)),
      locateFrom disk links here way = locateFrom other links here way := by
  induction links using Nat.strongRecOn with
  | ind links fewerLinks =>
      intro here way
      induction way generalizing here with
      | nil => rw [locateFrom, locateFrom]
      | cons name rest shorter =>
          rw [locateFrom, locateFrom]
          rcases Entry.rel_cases (same.at? proper here.reverse) with
            ⟨first, second⟩ | ⟨entry, otherEntry, first, second, sameHere⟩
          · simp only [at?, first, second]
          have sameChild := sameHere.child? (proper.of_at? first) name
          simp only [at?, first, second, ← sameHere.isDirectory_eq, ← sameHere.isSearchable_eq,
            shorter]
          congr 4
          rcases Entry.rel_cases sameChild with
            ⟨noChild, noOther⟩ | ⟨below, otherBelow, child, otherChild, sameBelow⟩
          · simp only [noChild, noOther]
          · simp only [child, otherChild]
            cases sameBelow with
            | file content modified => rfl
            | sealed modified => rfl
            | directory access both others _ order => rfl
            | link target =>
                cases links with
                | zero => rfl
                | succ fewer => exact fewerLinks fewer (Nat.lt_succ_self fewer) _ _

/-- A path leads to the same thing on both disks, or is refused alike. -/
theorem entryAt_of_reordered (same : disk.root.Reordered other.root)
    (proper : disk.root.IsProper allowed) (path : Path) :
    (∃ problem, disk.entryAt path = .error problem ∧ other.entryAt path = .error problem) ∨
      ∃ entry otherEntry, disk.entryAt path = .ok entry ∧
        other.entryAt path = .ok otherEntry ∧ entry.Reordered otherEntry := by
  have sameWay : other.locate path = disk.locate path := by
    rw [locate, locate, locateFrom_eq_of_reordered same proper]
  simp only [entryAt, sameWay]
  cases disk.locate path with
  | error problem => exact .inl ⟨problem, rfl, rfl⟩
  | ok way =>
      rcases Entry.rel_cases (same.at? proper way) with
        ⟨first, second⟩ | ⟨entry, otherEntry, first, second, sameEntry⟩
      · exact .inl ⟨.missing, by simp [standing, at?, first, bind, Except.bind],
          by simp [standing, at?, second, bind, Except.bind]⟩
      · exact .inr ⟨entry, otherEntry, by simp [standing, at?, first, bind, Except.bind],
          by simp [standing, at?, second, bind, Except.bind], sameEntry⟩

/-- Whether a path leads to a directory is answered alike on both disks. -/
theorem isDirectory_eq_of_reordered (same : disk.root.Reordered other.root)
    (proper : disk.root.IsProper allowed) (path : Path) :
    disk.isDirectory path = other.isDirectory path := by
  simp only [isDirectory, presence, presenceOf]
  rcases entryAt_of_reordered same proper path with
    ⟨problem, first, second⟩ | ⟨entry, otherEntry, first, second, sameEntry⟩
  · simp only [first, second]
  · simp only [first, second, sameEntry.isDirectory_eq]

end Disk

end ComponentAtlas
