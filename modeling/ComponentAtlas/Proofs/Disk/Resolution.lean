/-
Module: ComponentAtlas.Proofs.Disk.Resolution
Purpose: A path that leads somewhere is resolved to the names of the place it leads to.
Main exports:
  Leads.links_mono, Leads.unique, Leads.split, isOpen_of_leads, AreLinks, AreLinks.length_le,
  NeedsLinks, Leads.resolveFrom_eq, leads_of_at?, realPath_of_leads, entryAt_of_leads
-/
import Mathlib.Data.List.Perm.Subperm
import Mathlib.Data.Nat.Find
import ComponentAtlas.Proofs.Disk.Writing

namespace ComponentAtlas.Disk

variable {disk : Disk} {links : Nat} {here way found : List (List Char)}

/-!
Following a way and resolving it go through the same links, but in another order: a way
that is followed has the target of a link put in front of it, whereas a target is resolved
first and what comes behind it afterwards.
-/

/-- Links that are left over do not matter. -/
theorem Leads.links_mono (leads : Leads disk links here way found) {more : Nat}
    (atMost : links ≤ more) : Leads disk more here way found := by
  induction leads generalizing more with
  | arrived links here => exact .arrived more here
  | up atHere isSearchable _ ih => exact .up atHere isSearchable (ih atMost)
  | follow atHere lets child _ ih =>
      obtain ⟨fewer, rfl⟩ : ∃ fewer, more = fewer + 1 := ⟨more - 1, by omega⟩
      exact .follow atHere lets child (ih (by omega))
  | enter atHere lets child notLink _ ih => exact .enter atHere lets child notLink (ih atMost)

/-- A way leads to one place. -/
theorem Leads.unique (leads : Leads disk links here way found) {more : Nat}
    {other : List (List Char)} (leadsToo : Leads disk more here way other) : found = other := by
  have first := locateFrom_of_leads (leads.links_mono (Nat.le_max_left links more))
  have second := locateFrom_of_leads (leadsToo.links_mono (Nat.le_max_right links more))
  exact Except.ok.inj (first.symm.trans second)

/-- A way through a place first leads to this place, and the rest of it leads on from
there with the links that are left. -/
theorem Leads.split {first rest : List (List Char)}
    (leads : Leads disk links here (first ++ rest) found) :
    ∃ middle left, left ≤ links ∧ Leads disk links here first middle ∧
      Leads disk left middle.reverse rest found := by
  generalize isWay : first ++ rest = way at leads
  induction leads generalizing first with
  | arrived links here =>
      obtain ⟨rfl, rfl⟩ := List.append_eq_nil_iff.mp isWay
      exact ⟨here.reverse, links, le_rfl, .arrived links here,
        by simpa using Leads.arrived links here⟩
  | @up links here later found entry atHere isSearchable onwards ih =>
      cases first with
      | nil =>
          obtain rfl : rest = Path.above :: later := isWay
          exact ⟨here.reverse, links, le_rfl, .arrived links here,
            by simpa using Leads.up atHere isSearchable onwards⟩
      | cons name first =>
          obtain ⟨rfl, rfl⟩ := List.cons.inj isWay
          obtain ⟨middle, left, atMost, toMiddle, fromMiddle⟩ := ih rfl
          exact ⟨middle, left, atMost, .up atHere isSearchable toMiddle, fromMiddle⟩
  | @follow fewer here later found name entry target atHere lets child onwards ih =>
      cases first with
      | nil =>
          obtain rfl : rest = name :: later := isWay
          exact ⟨here.reverse, fewer + 1, le_rfl, .arrived _ here,
            by simpa using Leads.follow atHere lets child onwards⟩
      | cons name first =>
          obtain ⟨rfl, rfl⟩ := List.cons.inj isWay
          obtain ⟨middle, left, atMost, toMiddle, fromMiddle⟩ :=
            ih (List.append_assoc target.parts first rest)
          exact ⟨middle, left, by omega, .follow atHere lets child toMiddle, fromMiddle⟩
  | @enter links here later found name entry below atHere lets child notLink onwards ih =>
      cases first with
      | nil =>
          obtain rfl : rest = name :: later := isWay
          exact ⟨here.reverse, links, le_rfl, .arrived links here,
            by simpa using Leads.enter atHere lets child notLink onwards⟩
      | cons name first =>
          obtain ⟨rfl, rfl⟩ := List.cons.inj isWay
          obtain ⟨middle, left, atMost, toMiddle, fromMiddle⟩ := ih rfl
          exact ⟨middle, left, atMost, .enter atHere lets child notLink toMiddle, fromMiddle⟩

/-!
Names may be looked up all along a way that leads somewhere, so the links on it are links
for the machine too.
-/

theorem isOpen_of_append {entry : Entry} {first rest : List (List Char)}
    (opened : isOpen entry (first ++ rest)) : isOpen entry first := by
  induction first generalizing entry with
  | nil => rfl
  | cons name first ih =>
      simp only [List.cons_append, isOpen, Bool.and_eq_true] at opened ⊢
      refine ⟨opened.1, ?_⟩
      cases child : entry.child? name with
      | none => rfl
      | some below => exact ih (by simpa [child] using opened.2)

/-- One more name can be looked up where the last entry lets it through. -/
theorem isOpen_concat {entry below : Entry} {first : List (List Char)} {name : List Char}
    (opened : isOpen entry first) (atFirst : entry.at? first = some below)
    (lets : LetsThrough below name) : isOpen entry (first ++ [name]) := by
  induction first generalizing entry with
  | nil =>
      cases atFirst
      cases child : below.child? name <;> simp [isOpen, child, lets.isSearchable, lets.isShort]
  | cons next first ih =>
      obtain ⟨inner, child, atInner⟩ := Option.bind_eq_some_iff.mp atFirst
      simp only [isOpen, child, Option.all_some, List.cons_append, Bool.and_eq_true] at opened ⊢
      exact ⟨opened.1, ih opened.2 atInner⟩

theorem letsThrough_of_isOpen {entry below : Entry} {first rest : List (List Char)}
    {name : List Char} (opened : isOpen entry (first ++ name :: rest))
    (atFirst : entry.at? first = some below) (ne_above : name ≠ Path.above) :
    LetsThrough below name := by
  induction first generalizing entry with
  | nil =>
      cases atFirst
      simp only [List.nil_append, isOpen, Bool.and_eq_true, Bool.not_eq_true'] at opened
      exact ⟨opened.1.1, ne_above, opened.1.2⟩
  | cons next first ih =>
      obtain ⟨inner, child, atInner⟩ := Option.bind_eq_some_iff.mp atFirst
      simp only [isOpen, child, Option.all_some, List.cons_append, Bool.and_eq_true] at opened
      exact ih opened.2 atInner

theorem isOpen_child {name : List Char} {entry : Entry} (opened : isOpen disk.root here.reverse)
    (atHere : disk.at? here.reverse = some entry) (lets : LetsThrough entry name) :
    isOpen disk.root (name :: here).reverse := by
  rw [List.reverse_cons]
  exact isOpen_concat opened atHere lets

theorem isOpen_tail (opened : isOpen disk.root here.reverse) :
    isOpen disk.root here.tail.reverse := by
  cases here with
  | nil => exact opened
  | cons name rest =>
      rw [List.reverse_cons] at opened
      exact isOpen_of_append opened

/-- The place that a way starts from which is the target of a link. -/
def startOf (target : Path) (here : List (List Char)) : List (List Char) :=
  if target.isAbsolute then [] else here

theorem isOpen_startOf (opened : isOpen disk.root here.reverse) (target : Path) :
    isOpen disk.root (startOf target here).reverse := by
  unfold startOf
  split
  · rfl
  · exact opened

/-- Names may be looked up all along the names of a place that a way leads to. -/
theorem isOpen_of_leads (leads : Leads disk links here way found)
    (opened : isOpen disk.root here.reverse) : isOpen disk.root found := by
  induction leads with
  | arrived links here => exact opened
  | up _ _ _ ih => exact ih (isOpen_tail opened)
  | follow _ _ _ _ ih => exact ih (isOpen_startOf opened _)
  | enter atHere lets _ _ _ ih => exact ih (isOpen_child opened atHere lets)

theorem linkAt?_of_link {name : List Char} {target : Path}
    (isLink : disk.at? (name :: here).reverse = some (.link target))
    (opened : isOpen disk.root (name :: here).reverse) :
    disk.linkAt? (name :: here) = some target := by
  rw [linkAt?, isLink]
  exact if_pos opened

theorem linkAt?_of_not_link {name : List Char} {below : Entry}
    (stands : disk.at? (name :: here).reverse = some below)
    (notLink : ∀ target, below ≠ .link target) : disk.linkAt? (name :: here) = none := by
  rw [linkAt?, stands]
  cases below with
  | link target => exact absurd rfl (notLink target)
  | file content modified => rfl
  | sealed modified => rfl
  | directory access entries => rfl

/-!
The links that are being resolved are different links of the disk, so there are no more
of them than the disk has.
-/

/-- The ways to the links below some entries. -/
def linkWays : List (List Char × Entry) → List (List (List Char))
  | [] => []
  | (name, .link _) :: rest => [name] :: linkWays rest
  | (name, .directory _ entries) :: rest =>
    (linkWays entries).map (name :: ·) ++ linkWays rest
  | (_, .file _ _) :: rest => linkWays rest
  | (_, .sealed _) :: rest => linkWays rest

theorem length_linkWays (entries : List (List Char × Entry)) :
    (linkWays entries).length = countLinks entries := by
  induction entries using linkWays.induct with
  | case1 => simp [linkWays, countLinks]
  | case2 name target rest ih => simp [linkWays, countLinks, ih]
  | case3 name access entries rest ihEntries ih => simp [linkWays, countLinks, ihEntries, ih]
  | case4 name content modified rest ih => simp [linkWays, countLinks, ih]
  | case5 name modified rest ih => simp [linkWays, countLinks, ih]

theorem mem_linkWays {entries : List (List Char × Entry)} {name : List Char}
    {rest : List (List Char)} {target : Path}
    (isLink : ((Entry.lookUp entries name).bind fun below => below.at? rest) =
      some (.link target)) : name :: rest ∈ linkWays entries := by
  induction entries using linkWays.induct generalizing name rest with
  | case1 => cases isLink
  | case2 first other later ih =>
      rw [Entry.lookUp_cons] at isLink
      rw [linkWays]
      split at isLink
      · rename_i same
        subst same
        cases rest with
        | nil => exact List.mem_cons_self
        | cons next rest => cases isLink
      · exact List.mem_cons_of_mem _ (ih isLink)
  | case3 first access entries later ihEntries ih =>
      rw [Entry.lookUp_cons] at isLink
      rw [linkWays]
      split at isLink
      · rename_i same
        subst same
        cases rest with
        | nil => cases isLink
        | cons next rest =>
            exact List.mem_append_left _ (List.mem_map_of_mem (ihEntries isLink))
      · exact List.mem_append_right _ (ih isLink)
  | case4 first content modified later ih =>
      rw [Entry.lookUp_cons] at isLink
      rw [linkWays]
      split at isLink
      · cases rest <;> cases isLink
      · exact ih isLink
  | case5 first modified later ih =>
      rw [Entry.lookUp_cons] at isLink
      rw [linkWays]
      split at isLink
      · cases rest <;> cases isLink
      · exact ih isLink

/-- The places, in reverse order, of different links. -/
structure AreLinks (disk : Disk) (places : List (List (List Char))) : Prop where
  distinct : places.Nodup
  isLink : ∀ place ∈ places, place ≠ [] ∧ ∃ target, disk.at? place.reverse = some (.link target)

theorem AreLinks.length_le {places : List (List (List Char))} (areLinks : disk.AreLinks places) :
    places.length ≤ countLinks disk.root.entries := by
  have within : places.map List.reverse ⊆ linkWays disk.root.entries := by
    intro way member
    obtain ⟨place, isPlace, rfl⟩ := List.mem_map.mp member
    obtain ⟨ne_nil, target, isLink⟩ := areLinks.isLink place isPlace
    cases reversed : place.reverse with
    | nil => exact absurd (List.reverse_eq_nil_iff.mp reversed) ne_nil
    | cons name rest =>
        rw [reversed] at isLink
        exact mem_linkWays isLink
  have distinct : (places.map List.reverse).Nodup :=
    areLinks.distinct.map List.reverse_injective
  have bound := (List.subperm_of_subset distinct within).length_le
  rwa [List.length_map, length_linkWays] at bound

/-!
A link is never met again while it is being resolved: with the least number of links with
which its target leads somewhere, a way through the link itself would lead there with
fewer.
-/

/-- With fewer links the target of the link at a place leads nowhere. -/
def NeedsLinks (disk : Disk) (links : Nat) (place : List (List Char)) : Prop :=
  ∀ target, disk.at? place.reverse = some (.link target) →
    ∀ fewer < links, ∀ found, ¬Leads disk fewer (startOf target place.tail) target.parts found

theorem NeedsLinks.mono {place : List (List Char)} (needs : disk.NeedsLinks links place)
    {fewer : Nat} (atMost : fewer ≤ links) : disk.NeedsLinks fewer place :=
  fun target isLink less isLess => needs target isLink less (Nat.lt_of_lt_of_le isLess atMost)

/-- The least number of links with which the target of a link leads somewhere. -/
theorem exists_needed {target : Path} {name : List Char} {middle : List (List Char)}
    (isLink : disk.at? (name :: here).reverse = some (.link target))
    (leads : Leads disk links (startOf target here) target.parts middle) :
    ∃ least ≤ links, Leads disk least (startOf target here) target.parts middle ∧
      disk.NeedsLinks least (name :: here) := by
  classical
  have leadsWith : ∃ count, ∃ found, Leads disk count (startOf target here) target.parts found :=
    ⟨links, middle, leads⟩
  obtain ⟨found, leadsLeast⟩ := Nat.find_spec leadsWith
  obtain rfl := leadsLeast.unique leads
  refine ⟨Nat.find leadsWith, Nat.find_min' leadsWith ⟨found, leads⟩, leadsLeast, ?_⟩
  intro other isOther fewer isFewer place leadsFewer
  cases isLink.symm.trans isOther
  exact Nat.find_min leadsWith isFewer ⟨place, leadsFewer⟩

/-- Resolving a way that leads somewhere gives the names of that place.  The induction is
on the number of links: both the target of a link and what comes behind it are left with
fewer. -/
theorem Leads.resolveFrom_eq (links : Nat) :
    ∀ {here way found : List (List Char)}, Leads disk links here way found →
      isOpen disk.root here.reverse →
      ∀ {depth : Nat} {active : List (List (List Char))}, disk.AreLinks active →
        (∀ place ∈ active, disk.NeedsLinks links place) →
        countLinks disk.root.entries < depth + active.length →
        resolveFrom disk depth active here way = (found.reverse, true) := by
  induction links using Nat.strongRecOn with
  | ind links fewerLinks =>
      intro here way found leads
      induction way generalizing here with
      | nil =>
          intro opened depth active _ _ _
          cases leads
          rw [resolveFrom, List.reverse_reverse]
      | cons name rest shorter =>
          intro opened depth active areLinks needed enough
          cases leads with
          | up atHere isSearchable onwards =>
              rw [resolveFrom, if_pos rfl]
              exact shorter onwards (isOpen_tail opened) areLinks needed enough
          | @enter _ _ _ _ _ entry below atHere lets child notLink onwards =>
              have stands : disk.at? (name :: here).reverse = some below :=
                (at?_child name atHere).trans child
              rw [resolveFrom, if_neg lets.ne_above]
              simp only [linkAt?_of_not_link stands notLink]
              exact shorter onwards (isOpen_child opened atHere lets) areLinks needed enough
          | @follow fewer _ _ _ _ entry target atHere lets child onwards =>
              have isLink : disk.at? (name :: here).reverse = some (.link target) :=
                (at?_child name atHere).trans child
              obtain ⟨middle, left, atMost, toMiddle, fromMiddle⟩ := onwards.split
              obtain ⟨least, leastAtMost, leadsLeast, needs⟩ := exists_needed isLink toMiddle
              have notActive : name :: here ∉ active := fun isActive =>
                needed _ isActive target isLink fewer (Nat.lt_succ_self fewer) middle toMiddle
              have areLinksToo : disk.AreLinks ((name :: here) :: active) := by
                refine ⟨List.nodup_cons.mpr ⟨notActive, areLinks.distinct⟩, ?_⟩
                intro place member
                rcases List.mem_cons.mp member with rfl | isActive
                · exact ⟨List.cons_ne_nil name here, target, isLink⟩
                · exact areLinks.isLink place isActive
              have neededToo : ∀ place ∈ (name :: here) :: active, disk.NeedsLinks least place := by
                intro place member
                rcases List.mem_cons.mp member with rfl | isActive
                · exact needs
                · exact (needed place isActive).mono (by omega)
              have room := areLinksToo.length_le
              rw [List.length_cons] at room
              obtain ⟨less, rfl⟩ : ∃ less, depth = less + 1 := ⟨depth - 1, by omega⟩
              have inner : resolveFrom disk less ((name :: here) :: active) (startOf target here)
                  target.parts = (middle.reverse, true) :=
                fewerLinks least (by omega) leadsLeast (isOpen_startOf opened target) areLinksToo
                  neededToo (by rw [List.length_cons]; omega)
              have openMiddle : isOpen disk.root middle.reverse.reverse := by
                rw [List.reverse_reverse]
                exact isOpen_of_leads toMiddle (isOpen_startOf opened target)
              have behind := fewerLinks left (by omega) fromMiddle openMiddle areLinks
                (fun place isActive => (needed place isActive).mono (by omega)) enough
              have isTarget := linkAt?_of_link isLink (isOpen_child opened atHere lets)
              rw [startOf] at inner
              rw [resolveFrom, if_neg lets.ne_above]
              simp only [isTarget, notActive, if_false, inner, behind]

/-!
The names of the place are a path to it, without links and two dots.
-/

theorem Leads.above_notMem (leads : Leads disk links here way found) (free : Path.above ∉ here) :
    Path.above ∉ found := by
  induction leads with
  | arrived links here => rwa [List.mem_reverse]
  | up _ _ _ ih => exact ih fun member => free (List.mem_of_mem_tail member)
  | follow _ _ _ _ ih =>
      refine ih ?_
      split
      · exact List.not_mem_nil
      · exact free
  | enter _ lets _ _ _ ih =>
      refine ih fun member => ?_
      rcases List.mem_cons.mp member with isName | older
      · exact lets.ne_above isName.symm
      · exact free older

/-- Names at the end of which something stands, if that is no link, lead there, as far as
names may be looked up. -/
theorem leads_of_at? {entry : Entry} (free : Path.above ∉ way)
    (opened : isOpen disk.root (here.reverse ++ way))
    (stands : disk.at? (here.reverse ++ way) = some entry) (notLink : entry.target? = none)
    (links : Nat) : Leads disk links here way (here.reverse ++ way) := by
  induction way generalizing here with
  | nil =>
      rw [List.append_nil]
      exact .arrived links here
  | cons name rest ih =>
      have isReverse : (name :: here).reverse ++ rest = here.reverse ++ name :: rest := by simp
      rw [at?, Entry.at?_append] at stands
      obtain ⟨outer, atHere, inside⟩ := Option.bind_eq_some_iff.mp stands
      have lets : LetsThrough outer name := letsThrough_of_isOpen opened atHere
        fun isAbove => free (isAbove ▸ List.mem_cons_self)
      obtain ⟨below, child, inner⟩ := Option.bind_eq_some_iff.mp inside
      have belowNotLink : ∀ target, below ≠ .link target := by
        rintro target rfl
        cases rest with
        | nil =>
            cases inner
            cases notLink
        | cons next rest => cases inner
      refine .enter atHere lets child belowNotLink ?_
      rw [← isReverse]
      refine ih (fun member => free (List.mem_cons_of_mem _ member)) ?_ ?_
      · rw [isReverse]
        exact opened
      · rw [isReverse, at?, Entry.at?_append]
        exact stands

theorem normal_of_above_notMem {path : Path} (free : Path.above ∉ path.parts) :
    path.normal = path := by
  suffices kept : ∀ (parts reversed : List (List Char)), Path.above ∉ parts →
      parts.foldl (Path.climb path.slashes) reversed = parts.reverse ++ reversed by
    simp [Path.normal, kept path.parts [] free]
  intro parts
  induction parts with
  | nil => simp
  | cons name rest ih =>
      intro reversed free
      have ne_above : name ≠ Path.above := fun isAbove => free (isAbove ▸ List.mem_cons_self)
      rw [List.foldl_cons, Path.climb_of_name _ _ ne_above,
        ih _ fun member => free (List.mem_cons_of_mem _ member)]
      simp

/-- A way leads there directly by the names of the place that it leads to. -/
theorem Leads.direct {entry : Entry} (leads : Leads disk links [] way found)
    (stands : disk.at? found = some entry) (notLink : entry.target? = none) :
    Leads disk links [] found found :=
  leads_of_at? (leads.above_notMem List.not_mem_nil) (isOpen_of_leads leads rfl) stands notLink links

/-- A path that leads to something has a real path. -/
theorem realPath_of_leads {path : Path} {entry : Entry} (noNull : hasNull path = false)
    (leads : Leads disk maxLinks [] path.parts found) (stands : disk.at? found = some entry)
    (notLink : entry.target? = none) :
    disk.realPath path = .ok { slashes := 1, parts := found } := by
  have free : Path.above ∉ found := leads.above_notMem List.not_mem_nil
  have resolved : resolveFrom disk (countLinks disk.root.entries + 1) [] [] path.parts =
      (found.reverse, true) :=
    Leads.resolveFrom_eq maxLinks leads rfl ⟨List.nodup_nil, by simp⟩ (by simp) (by simp)
  have isReal : disk.withoutLinks path = { slashes := 1, parts := found } := by
    rw [withoutLinks, resolved]
    simp only [List.reverse_reverse]
    exact normal_of_above_notMem free
  have direct := locateFrom_of_leads (leads.direct stands notLink)
  rw [realPath, noNull]
  simp only [Bool.false_eq_true, if_false, isReal, locate]
  split
  · rename_i isLoop
    split at isLoop
    · cases isLoop
    · rw [direct] at isLoop
      cases isLoop
  · rfl

/-!
What a path that leads to a file finds.
-/

theorem entryAt_of_leads {path : Path} {entry : Entry} (isShort : path.isLong = false)
    (leads : Leads disk maxLinks [] path.parts found) (stands : disk.at? found = some entry) :
    disk.entryAt path = .ok entry :=
  bind_eq_ok.mpr ⟨found, locate_eq_ok_iff.mpr ⟨isShort, leads⟩, standing_eq_ok_iff.mpr stands⟩

/-- A path without links leads to what stands there. -/
theorem entryAt_of_at? {path : Path} {entry : Entry} (isShort : path.isLong = false)
    (free : Path.above ∉ path.parts) (opened : isOpen disk.root path.parts)
    (stands : disk.at? path.parts = some entry) (notLink : entry.target? = none) :
    disk.entryAt path = .ok entry :=
  entryAt_of_leads isShort (leads_of_at? free opened stands notLink maxLinks) stands

variable {path : Path} {content : List UInt8} {modified : Timestamp}

theorem presence_of_leads (noNull : hasNull path = false) (isShort : path.isLong = false)
    (leads : Leads disk maxLinks [] path.parts found)
    (stands : disk.at? found = some (.file content modified)) :
    disk.presence path = .ok .other := by
  rw [presence, noNull, entryAt_of_leads isShort leads stands]
  rfl

theorem isPresent_of_leads (noNull : hasNull path = false) (isShort : path.isLong = false)
    (leads : Leads disk maxLinks [] path.parts found)
    (stands : disk.at? found = some (.file content modified)) : disk.isPresent path = .ok true := by
  rw [isPresent, presence_of_leads noNull isShort leads stands]
  rfl

theorem contentAt_of_leads (noNull : hasNull path = false) (isShort : path.isLong = false)
    (leads : Leads disk maxLinks [] path.parts found)
    (stands : disk.at? found = some (.file content modified)) :
    disk.contentAt path = .ok (content, modified) := by
  rw [contentAt, noNull, entryAt_of_leads isShort leads stands]
  rfl

end ComponentAtlas.Disk
