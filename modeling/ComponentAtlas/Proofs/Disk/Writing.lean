/-
Module: ComponentAtlas.Proofs.Disk.Writing
Purpose: What a file that was written leaves on the disk, and that its path leads to it.
Main exports:
  Entry.PassesAs, at?_put_self, at?_put_of_ne, Disk.IsFree, Disk.Places, Places.leads_put,
  store_spec, root_isDirectory_makeDirectoriesFrom
-/
import ComponentAtlas.Disk.Change
import ComponentAtlas.Proofs.Disk.Tree
import ComponentAtlas.Proofs.Fallible

namespace ComponentAtlas

namespace Entry

variable {entry below file : Entry} {name other : List Char}
  {entries : List (List Char × Entry)}

/-- Where a link leads; anything else leads nowhere. -/
def target? : Entry → Option Path
  | .link target => some target
  | _ => none

/-- A way goes on alike behind both entries, as far as it depends on these themselves. -/
structure PassesAs (entry other : Entry) : Prop where
  isSearchable : other.isSearchable = entry.isSearchable
  target : other.target? = entry.target?

theorem PassesAs.refl (entry : Entry) : entry.PassesAs entry := ⟨rfl, rfl⟩

/-- A directory in which something changes may still be searched if it could before. -/
theorem passesAs_change (isDirectory : entry.isDirectory) (update : Option Entry → Option Entry)
    (name : List Char) (rest : List (List Char)) :
    entry.PassesAs (entry.change update name rest) := by
  cases entry with
  | directory access entries => cases rest <;> exact ⟨rfl, rfl⟩
  | file content modified => cases isDirectory
  | sealed modified => cases isDirectory
  | link target => cases isDirectory

theorem target?_of_isDirectory (isDirectory : entry.isDirectory) : entry.target? = none := by
  cases entry <;> cases isDirectory
  rfl

theorem eq_link_of_target? {target : Path} (isTarget : entry.target? = some target) :
    entry = .link target := by
  cases entry <;> cases isTarget
  rfl

/-- The entry of a name in a list of entries. -/
def lookUp (entries : List (List Char × Entry)) (name : List Char) : Option Entry :=
  (entries.find? fun found => found.1 = name).map (·.2)

theorem lookUp_cons (entries : List (List Char × Entry)) (found : List Char × Entry)
    (name : List Char) :
    lookUp (found :: entries) name = if found.1 = name then some found.2 else lookUp entries name := by
  unfold lookUp
  by_cases isName : found.1 = name <;> simp [isName]

theorem lookUp_changeChild_self (update : Option Entry → Entry) :
    lookUp (changeChild entries name fun found => some (update found)) name =
      some (update (lookUp entries name)) := by
  induction entries with
  | nil => simp [changeChild, lookUp]
  | cons found rest ih =>
      obtain ⟨first, stands⟩ := found
      unfold changeChild
      by_cases isName : first = name
      · simp [isName, lookUp_cons]
      · simpa [isName, lookUp_cons] using ih

theorem lookUp_changeChild_of_ne (update : Option Entry → Option Entry) (ne : other ≠ name) :
    lookUp (changeChild entries name update) other = lookUp entries other := by
  induction entries with
  | nil =>
      unfold changeChild
      cases update none with
      | none => rfl
      | some stands => simp [lookUp, Ne.symm ne]
  | cons found rest ih =>
      obtain ⟨first, stands⟩ := found
      unfold changeChild
      by_cases isName : first = name
      · subst isName
        cases update (some stands) with
        | none => simp [lookUp_cons, Ne.symm ne]
        | some next => simp [lookUp_cons, Ne.symm ne]
      · rw [if_neg isName, lookUp_cons, lookUp_cons, ih]

/-!
An entry that is put at the end of a way stands there afterwards.  Off the way nothing
changes, and on the way the directories stay directories.
-/

theorem isDirectory_change (entry : Entry) (update : Option Entry → Option Entry)
    (name : List Char) (rest : List (List Char)) : (entry.change update name rest).isDirectory := by
  cases rest with
  | nil => rfl
  | cons next rest => rfl

theorem child?_change_of_ne (entry : Entry) (update : Option Entry → Option Entry)
    (rest : List (List Char)) (ne : other ≠ name) :
    (entry.change update name rest).child? other = entry.child? other := by
  cases rest with
  | nil => exact lookUp_changeChild_of_ne update ne
  | cons next rest => exact lookUp_changeChild_of_ne _ ne

theorem child?_change_nil (entry file : Entry) (name : List Char) :
    (entry.change (fun _ => some file) name []).child? name = some file :=
  lookUp_changeChild_self fun _ => file

theorem child?_change_cons (entry : Entry) (update : Option Entry → Option Entry)
    (name next : List Char) (rest : List (List Char)) :
    (entry.change update name (next :: rest)).child? name =
      some (((entry.child? name).getD emptyDirectory).change update next rest) :=
  lookUp_changeChild_self fun found => (found.getD emptyDirectory).change update next rest

theorem at?_change_self (entry file : Entry) (name : List Char) (rest : List (List Char)) :
    (entry.change (fun _ => some file) name rest).at? (name :: rest) = some file := by
  induction rest generalizing entry name with
  | nil => simp [at?, child?_change_nil]
  | cons next rest ih =>
      rw [at?, child?_change_cons, Option.bind_some]
      exact ih _ next

theorem isDirectory_of_at?_cons {next : List Char} {rest : List (List Char)}
    (found : entry.at? (next :: rest) = some below) : entry.isDirectory := by
  obtain ⟨inner, child, -⟩ := Option.bind_eq_some_iff.mp found
  exact isDirectory_of_child? child

/-- What stood on another way passes a way on as before.  The way to the new entry leads
through directories, and at its end there was none. -/
theorem at?_change_of_ne {above : Entry} {rest : List (List Char)}
    (atAbove : entry.at? (name :: rest).dropLast = some above) (isDirectory : above.isDirectory)
    (notDirectory : ∀ stands, entry.at? (name :: rest) = some stands → ¬stands.isDirectory)
    {way : List (List Char)} (ne : way ≠ name :: rest) (found : entry.at? way = some below) :
    ∃ next, (entry.change (fun _ => some file) name rest).at? way = some next ∧
      below.PassesAs next := by
  induction rest generalizing entry name way with
  | nil =>
      obtain rfl : entry = above := by simpa [at?] using atAbove
      cases way with
      | nil =>
          obtain rfl : entry = below := by simpa [at?] using found
          exact ⟨_, rfl, passesAs_change isDirectory _ name []⟩
      | cons first later =>
          obtain ⟨inner, child, inside⟩ := Option.bind_eq_some_iff.mp found
          by_cases same : first = name
          · subst same
            -- Below the end of the way there was nothing.
            cases later with
            | nil => exact absurd rfl ne
            | cons second more =>
                have isEnd : entry.at? [first] = some inner := by simp [at?, child]
                exact absurd (isDirectory_of_at?_cons inside) (notDirectory inner isEnd)
          · refine ⟨below, ?_, .refl below⟩
            rw [at?, child?_change_of_ne entry _ [] same, child]
            exact inside
  | cons next rest ih =>
      obtain ⟨inner, innerChild, innerAbove⟩ := Option.bind_eq_some_iff.mp atAbove
      cases way with
      | nil =>
          obtain rfl : entry = below := by simpa [at?] using found
          exact ⟨_, rfl, passesAs_change (isDirectory_of_child? innerChild) _ name (next :: rest)⟩
      | cons first later =>
          obtain ⟨stands, child, inside⟩ := Option.bind_eq_some_iff.mp found
          by_cases same : first = name
          · subst same
            obtain rfl : inner = stands := Option.some.inj (innerChild.symm.trans child)
            rw [at?, child?_change_cons, child, Option.getD_some, Option.bind_some]
            refine ih innerAbove (fun stands atEnd => notDirectory stands ?_) ?_ inside
            · rw [at?, child]
              exact atEnd
            · rintro rfl
              exact ne rfl
          · refine ⟨below, ?_, .refl below⟩
            rw [at?, child?_change_of_ne entry _ _ same, child]
            exact inside

end Entry

namespace Disk

variable {disk : Disk} {file : Entry} {names : List (List Char)}

/-- The names lead through directories to a place where no directory and no link stands. -/
structure IsFree (disk : Disk) (names : List (List Char)) : Prop where
  ne_nil : names ≠ []
  above : ∃ entry, disk.at? names.dropLast = some entry ∧ entry.isDirectory
  notDirectory : ∀ entry, disk.at? names = some entry → ¬entry.isDirectory
  notLink : ∀ target, disk.at? names ≠ some (.link target)

theorem at?_put_self (disk : Disk) (file : Entry) (ne_nil : names ≠ []) :
    (disk.put names file).at? names = some file := by
  cases names with
  | nil => exact absurd rfl ne_nil
  | cons name rest => exact Entry.at?_change_self disk.root file name rest

theorem at?_put_of_ne (file : Entry) (free : disk.IsFree names) {way : List (List Char)} (ne : way ≠ names)
    {entry : Entry} (found : disk.at? way = some entry) :
    ∃ next, (disk.put names file).at? way = some next ∧ entry.PassesAs next := by
  cases names with
  | nil => exact absurd rfl free.ne_nil
  | cons name rest =>
      obtain ⟨above, atAbove, isDirectory⟩ := free.above
      exact Entry.at?_change_of_ne atAbove isDirectory free.notDirectory ne found

/-- What it means that a way leads to a place where a file stands or can be made, as
`Leads`. -/
inductive Places (disk : Disk) :
    Nat → List (List Char) → List (List Char) → List (List Char) → Prop where
  | arrived (links : Nat) (here : List (List Char)) : Places disk links here [] here.reverse
  | make {links : Nat} {here : List (List Char)} {name : List Char} {entry : Entry}
      (atHere : disk.at? here.reverse = some entry) (lets : LetsThrough entry name)
      (missing : entry.child? name = none) :
      Places disk links here [name] (name :: here).reverse
  | up {links : Nat} {here rest names : List (List Char)} {entry : Entry}
      (atHere : disk.at? here.reverse = some entry) (isSearchable : entry.isSearchable)
      (later : Places disk links here.tail rest names) :
      Places disk links here (Path.above :: rest) names
  | follow {fewer : Nat} {here rest names : List (List Char)} {name : List Char}
      {entry : Entry} {target : Path} (atHere : disk.at? here.reverse = some entry)
      (lets : LetsThrough entry name) (child : entry.child? name = some (.link target))
      (later : Places disk fewer (if target.isAbsolute then [] else here)
        (target.parts ++ rest) names) :
      Places disk (fewer + 1) here (name :: rest) names
  | enter {links : Nat} {here rest names : List (List Char)} {name : List Char}
      {entry below : Entry} (atHere : disk.at? here.reverse = some entry)
      (lets : LetsThrough entry name) (child : entry.child? name = some below)
      (notLink : ∀ target, below ≠ .link target)
      (later : Places disk links (name :: here) rest names) :
      Places disk links here (name :: rest) names

theorem places_of_placeFrom (links : Nat) :
    ∀ {here way names : List (List Char)}, placeFrom disk links here way = .ok names →
      Places disk links here way names := by
  induction links using Nat.strongRecOn with
  | ind links fewerLinks =>
      intro here way names placed
      induction way generalizing here with
      | nil =>
          rw [placeFrom] at placed
          cases placed
          exact .arrived links here
      | cons name rest shorter =>
          rw [placeFrom] at placed
          split at placed
          · cases placed
          rename_i entry atHere
          split at placed
          · cases placed
          split at placed
          · cases placed
          rename_i isSearchable
          have isSearchable : entry.isSearchable := by simpa using isSearchable
          split at placed
          · rename_i isAbove
            subst isAbove
            exact .up atHere isSearchable (shorter placed)
          rename_i ne_above
          split at placed
          · cases placed
          rename_i isShort
          have lets : LetsThrough entry name := ⟨isSearchable, ne_above, by simpa using isShort⟩
          split at placed
          · rename_i missing
            split at placed
            · rename_i isLast
              cases placed
              obtain rfl : rest = [] := List.isEmpty_iff.mp isLast
              exact .make atHere lets missing
            · cases placed
          · rename_i target child
            split at placed
            · cases placed
            · rename_i fewer
              exact .follow atHere lets child
                (fewerLinks fewer (Nat.lt_succ_self fewer) placed)
          · rename_i below notLink child
            exact .enter atHere lets child notLink (shorter placed)

theorem at?_child {here : List (List Char)} {entry : Entry} (name : List Char)
    (atHere : disk.at? here.reverse = some entry) :
    disk.at? (name :: here).reverse = entry.child? name := by
  rw [at?] at atHere
  rw [at?, List.reverse_cons, Entry.at?_append, atHere]
  cases child : entry.child? name <;> simp [Entry.at?, child]

/-- Above what stands on the disk there is a directory. -/
theorem exists_above (rooted : disk.root.isDirectory) {way : List (List Char)} {entry : Entry}
    (found : disk.at? way = some entry) :
    ∃ above, disk.at? way.dropLast = some above ∧ above.isDirectory := by
  rcases List.eq_nil_or_concat way with rfl | ⟨way, last, rfl⟩
  · exact ⟨disk.root, rfl, rooted⟩
  · rw [at?, List.concat_eq_append, Entry.at?_append] at found
    obtain ⟨above, atAbove, inside⟩ := Option.bind_eq_some_iff.mp found
    rw [List.concat_eq_append, List.dropLast_concat]
    exact ⟨above, atAbove, Entry.isDirectory_of_at?_cons inside⟩

/-- Above the place of a file there is a directory, and no link stands at it: links on the
way were followed. -/
theorem Places.spec {links : Nat} {here way : List (List Char)} (rooted : disk.root.isDirectory)
    (places : Places disk links here way names)
    (start : ∃ entry, disk.at? here.reverse = some entry ∧ entry.target? = none) :
    (∃ above, disk.at? names.dropLast = some above ∧ above.isDirectory) ∧
      ∀ target, disk.at? names ≠ some (.link target) := by
  induction places with
  | arrived links here =>
      obtain ⟨entry, atHere, notLink⟩ := start
      refine ⟨exists_above rooted atHere, fun target isLink => ?_⟩
      rw [atHere] at isLink
      cases isLink
      cases notLink
  | @make links here name entry atHere lets missing =>
      rw [at?_child name atHere, missing, List.reverse_cons, List.dropLast_concat]
      exact ⟨⟨entry, atHere, Entry.isDirectory_of_isSearchable lets.isSearchable⟩,
        fun target isLink => by cases isLink⟩
  | @up links here rest names entry atHere _ _ ih =>
      obtain ⟨above, atAbove, isDirectory⟩ := exists_above rooted atHere
      rw [List.dropLast_reverse] at atAbove
      exact ih ⟨above, atAbove, Entry.target?_of_isDirectory isDirectory⟩
  | @follow fewer here rest names name entry target atHere _ child _ ih =>
      refine ih ?_
      split
      · exact ⟨disk.root, rfl, Entry.target?_of_isDirectory rooted⟩
      · exact ⟨entry, atHere, Entry.target?_of_isDirectory (Entry.isDirectory_of_child? child)⟩
  | @enter links here rest names name entry below atHere _ child notLink _ ih =>
      refine ih ⟨below, (at?_child name atHere).trans child, ?_⟩
      cases below with
      | link target => exact absurd rfl (notLink target)
      | _ => rfl

/-- A path leads to the file that was put at its place. -/
theorem Places.leads_put {links : Nat} {here way : List (List Char)}
    (places : Places disk links here way names) (free : disk.IsFree names)
    (notLink : ∀ target, file ≠ .link target) :
    Leads (disk.put names file) links here way names := by
  -- A directory on the way is not at the place of the file, so it stays one.
  have stays {here : List (List Char)} {entry : Entry} (atHere : disk.at? here.reverse = some entry)
      (isSearchable : entry.isSearchable) :
      ∃ next, (disk.put names file).at? here.reverse = some next ∧ next.isSearchable := by
    have ne : here.reverse ≠ names := by
      rintro rfl
      exact free.notDirectory entry atHere (Entry.isDirectory_of_isSearchable isSearchable)
    obtain ⟨next, atNext, same⟩ := at?_put_of_ne file free ne atHere
    exact ⟨next, atNext, same.isSearchable.trans isSearchable⟩
  induction places with
  | arrived links here => exact .arrived links here
  | up atHere isSearchable _ ih =>
      obtain ⟨next, atNext, isNext⟩ := stays atHere isSearchable
      exact .up atNext isNext (ih free stays)
  | @make links here name entry atHere lets missing =>
      obtain ⟨next, atNext, isNext⟩ := stays atHere lets.isSearchable
      have child := (at?_child name atNext).symm.trans (at?_put_self disk file free.ne_nil)
      exact .enter atNext ⟨isNext, lets.ne_above, lets.isShort⟩ child notLink
        (.arrived links (name :: here))
  | @follow fewer here rest names name entry target atHere lets child _ ih =>
      obtain ⟨next, atNext, isNext⟩ := stays atHere lets.isSearchable
      have isLink := (at?_child name atHere).trans child
      have ne : (name :: here).reverse ≠ names := by
        rintro rfl
        exact free.notLink target isLink
      obtain ⟨below, atBelow, same⟩ := at?_put_of_ne file free ne isLink
      obtain rfl : below = .link target := Entry.eq_link_of_target? same.target
      exact .follow atNext ⟨isNext, lets.ne_above, lets.isShort⟩
        ((at?_child name atNext).symm.trans atBelow) (ih free stays)
  | @enter links here rest names name entry below atHere lets child notLinkBelow _ ih =>
      obtain ⟨next, atNext, isNext⟩ := stays atHere lets.isSearchable
      have letsToo : LetsThrough next name := ⟨isNext, lets.ne_above, lets.isShort⟩
      have isBelow := (at?_child name atHere).trans child
      by_cases isPlace : (name :: here).reverse = names
      · have atFile : (disk.put names file).at? (name :: here).reverse = some file := by
          rw [isPlace]
          exact at?_put_self disk file free.ne_nil
        have child := (at?_child name atNext).symm.trans atFile
        exact .enter atNext letsToo child notLink (ih free stays)
      · obtain ⟨after, atAfter, same⟩ := at?_put_of_ne file free isPlace isBelow
        refine .enter atNext letsToo ((at?_child name atNext).symm.trans atAfter) ?_ (ih free stays)
        rintro target rfl
        exact notLinkBelow target (Entry.eq_link_of_target? same.target.symm)

theorem filePlace_spec {path : Path} (rooted : disk.root.isDirectory)
    (placed : disk.filePlace path = .ok names) :
    path.isLong = false ∧ Places disk maxLinks [] path.parts names ∧ disk.IsFree names := by
  unfold filePlace at placed
  split at placed
  · cases placed
  rename_i isShort
  obtain ⟨found, isFound, placed⟩ := bind_eq_ok.mp placed
  have places := places_of_placeFrom maxLinks isFound
  obtain ⟨above, notLink⟩ := places.spec rooted
    ⟨disk.root, rfl, Entry.target?_of_isDirectory rooted⟩
  have noDirectory (entry : Entry) (atFound : disk.at? found = some entry) :
      ¬entry.isDirectory := by
    intro isDirectory
    cases entry with
    | directory access entries =>
        simp only [atFound] at placed
        cases placed
    | _ => cases isDirectory
  have isPlace : names = found := by
    split at placed <;> cases placed
    rfl
  subst isPlace
  refine ⟨by simpa using isShort, places, ?_, above, noDirectory, notLink⟩
  rintro rfl
  exact noDirectory disk.root rfl rooted

theorem faultAt_eq_ok {α : Type} {path : Path} {answer : Except DiskProblem α} {done : α} :
    faultAt path answer = .ok done ↔ answer = .ok done := by
  cases answer <;> simp [faultAt, Except.mapError]

/-- A path that got a file leads to it afterwards. -/
theorem store_spec {path : Path} {content : List UInt8} {modified : Timestamp} {next : Disk}
    (rooted : disk.root.isDirectory) (stored : disk.store path content modified = .ok next) :
    hasNull path = false ∧ path.isLong = false ∧
      ∃ names, Leads next maxLinks [] path.parts names ∧
        next.at? names = some (.file content modified) := by
  unfold store at stored
  split at stored
  · cases stored
  rename_i noNull
  obtain ⟨names, placed, done⟩ := bind_eq_ok.mp (faultAt_eq_ok.mp stored)
  cases done
  obtain ⟨isShort, places, free⟩ := filePlace_spec rooted placed
  have leads : Leads (disk.put names (.file content modified)) maxLinks [] path.parts names :=
    places.leads_put free fun target isLink => by cases isLink
  exact ⟨by simpa using noNull, isShort, names, leads, at?_put_self disk _ free.ne_nil⟩

/-!
Making directories leaves the root a directory.
-/

theorem root_isDirectory_put (rooted : disk.root.isDirectory) (names : List (List Char))
    (entry : Entry) : (disk.put names entry).root.isDirectory := by
  cases names with
  | nil => exact rooted
  | cons name rest => exact Entry.isDirectory_change disk.root _ name rest

theorem root_isDirectory_makeDirectory {path : Path} {next : Disk}
    (rooted : disk.root.isDirectory) (made : disk.makeDirectory path = .ok next) :
    next.root.isDirectory := by
  obtain ⟨above, -, made⟩ := bind_eq_ok.mp made
  split at made
  · cases made
  · cases made
    exact root_isDirectory_put rooted _ _

theorem root_isDirectory_acceptDirectory {path : Path} {next : Disk}
    {answer : Except DiskProblem Disk} (rooted : disk.root.isDirectory)
    (made : ∀ next, answer = .ok next → next.root.isDirectory)
    (accepted : disk.acceptDirectory path answer = .ok next) : next.root.isDirectory := by
  unfold acceptDirectory at accepted
  split at accepted
  · cases accepted
    exact made _ rfl
  · obtain ⟨isDirectory, -, accepted⟩ := bind_eq_ok.mp accepted
    split at accepted
    · cases accepted
      exact rooted
    · cases accepted

theorem root_isDirectory_makeDirectoriesFrom {slashes : Nat} {names : List (List Char)}
    {next : Disk} (rooted : disk.root.isDirectory)
    (made : disk.makeDirectoriesFrom slashes names = .ok next) : next.root.isDirectory := by
  induction names generalizing next with
  | nil =>
      cases made
      exact rooted
  | cons name above ih =>
      unfold makeDirectoriesFrom at made
      dsimp only at made
      split at made
      · obtain ⟨middle, isMiddle, made⟩ := bind_eq_ok.mp made
        exact root_isDirectory_acceptDirectory (ih isMiddle)
          (fun _ isNext => root_isDirectory_makeDirectory (ih isMiddle) isNext) made
      · exact root_isDirectory_acceptDirectory rooted
          (fun _ isNext => root_isDirectory_makeDirectory rooted isNext) made

end Disk

end ComponentAtlas
