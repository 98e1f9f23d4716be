/-
Module: ComponentAtlas.Proofs.Cache.RecordsRun
Purpose: Runs of a cache of components: what it holds is told by the history of the run.
Main exports:
  Records.IsOrdered, areOldest_oldest, Records.Act, Records.run, Records.uses,
  Records.Removes, Records.Stands, holds_perform, run_forgets_oldest
-/
import Mathlib
import ComponentAtlas.Proofs.Cache.History
import ComponentAtlas.Proofs.Cache.Records

namespace ComponentAtlas.Cache.Records

variable {τ : Type} {cache : Records τ} {used : List String} {now : τ} {slot other : Slot τ}
  {slots : List (Slot τ)}

/-!
Slots keep the place at which their file was first put.  What tells the order of the last
uses is the pair of a time and a number; the number alone would do, for the clock never
goes back.
-/

/-- The files of the slots. -/
def files (cache : Records τ) : List String := cache.slots.map Slot.path

theorem path_mem_files (member : slot ∈ cache.slots) : slot.path ∈ cache.files :=
  List.mem_map_of_mem member

theorem paths_eq_files {mode : Mode} (enabled : mode.enabled) : cache.paths mode = cache.files := by
  simp [paths, visible, enabled, files]

/-- The numbers of the slots are in the order of the last uses of their files, and the
times agree with it as far as they differ.  No slot was used later than now. -/
structure IsOrdered [LE τ] (used : List String) (now : τ) (cache : Records τ) : Prop where
  distinct : cache.files.Nodup
  areUsed : ∀ slot ∈ cache.slots, slot.path ∈ used
  apart : ∀ slot ∈ cache.slots, ∀ other ∈ cache.slots, slot.tick = other.tick → slot = other
  ordered : ∀ slot ∈ cache.slots, ∀ other ∈ cache.slots, slot.tick < other.tick →
    LastBefore used slot.path other.path ∧ slot.lastUse ≤ other.lastUse
  ticked : ∀ slot ∈ cache.slots, slot.tick < cache.nextTick
  past : ∀ slot ∈ cache.slots, slot.lastUse ≤ now

theorem files_place (slot : Slot τ) (slots : List (Slot τ)) :
    (place slot slots).map Slot.path =
      if slot.path ∈ slots.map Slot.path then slots.map Slot.path
      else slots.map Slot.path ++ [slot.path] := by
  induction slots with
  | nil => rfl
  | cons first rest ih =>
      unfold place
      by_cases same : first.path = slot.path
      · simp [same]
      · have ne : slot.path ≠ first.path := Ne.symm same
        rw [if_neg same, List.map_cons, ih, List.map_cons]
        by_cases later : slot.path ∈ rest.map Slot.path
        · rw [if_pos later, if_pos (List.mem_cons_of_mem _ later)]
        · rw [if_neg later, if_neg (by simp only [List.mem_cons, ne, later, or_self, not_false_eq_true]),
            List.cons_append]

theorem nodup_place (slot : Slot τ) (distinct : (slots.map Slot.path).Nodup) :
    ((place slot slots).map Slot.path).Nodup := by
  rw [files_place]
  split
  · exact distinct
  · rename_i new
    exact List.nodup_append.mpr ⟨distinct, List.nodup_singleton _, by
      rintro path member _ isLast rfl
      exact new (List.mem_singleton.mp isLast ▸ member)⟩

/-- A slot that is placed takes the place of the one of its file. -/
theorem mem_place_iff (distinct : (slots.map Slot.path).Nodup) :
    other ∈ place slot slots ↔ other = slot ∨ (other ∈ slots ∧ other.path ≠ slot.path) := by
  induction slots with
  | nil => simp [place]
  | cons first rest ih =>
      rw [List.map_cons, List.nodup_cons] at distinct
      unfold place
      by_cases same : first.path = slot.path
      · have apart : ∀ later ∈ rest, later.path ≠ slot.path := fun later member isPath =>
          distinct.1 (same ▸ isPath ▸ List.mem_map_of_mem member)
        rw [if_pos same, List.mem_cons, List.mem_cons]
        constructor
        · rintro (isSlot | later)
          · exact .inl isSlot
          · exact .inr ⟨.inr later, apart other later⟩
        · rintro (isSlot | ⟨rfl | later, ne⟩)
          · exact .inl isSlot
          · exact absurd same ne
          · exact .inr later
      · rw [if_neg same, List.mem_cons, List.mem_cons, ih distinct.2]
        constructor
        · rintro (rfl | isSlot | ⟨later, ne⟩)
          · exact .inr ⟨.inl rfl, same⟩
          · exact .inl isSlot
          · exact .inr ⟨.inr later, ne⟩
        · rintro (isSlot | ⟨isFirst | later, ne⟩)
          · exact .inr (.inl isSlot)
          · exact .inl isFirst
          · exact .inr (.inr ⟨later, ne⟩)

/-- The files that are there with a new one, before anything is forgotten. -/
theorem files_insert (cache : Records τ) (now : τ) (component : Component) :
    (cache.insert now component).files =
      if component.filePath ∈ cache.files then cache.files
      else cache.files ++ [component.filePath] :=
  files_place _ cache.slots

theorem mem_files_insert (now : τ) {path : String} {component : Component} :
    path ∈ (cache.insert now component).files ↔
      path ∈ cache.files.insert component.filePath := by
  rw [files_insert, List.mem_insert_iff]
  split
  · rename_i stored
    constructor
    · exact .inr
    · rintro (rfl | old)
      · exact stored
      · exact old
  · rw [List.mem_append, List.mem_singleton, or_comm]

theorem length_insert (cache : Records τ) (now : τ) (component : Component) :
    (cache.insert now component).slots.length =
      (cache.files.insert component.filePath).length := by
  have sameLength : (cache.insert now component).slots.length =
      (cache.insert now component).files.length := (List.length_map _).symm
  rw [sameLength, files_insert]
  split
  · rename_i stored
    rw [List.insert_of_mem stored]
  · rename_i new
    rw [List.insert_of_not_mem new, List.length_append, List.length_cons]
    rfl

theorem length_insert_le (cache : Records τ) (now : τ) (component : Component) :
    (cache.insert now component).slots.length ≤ cache.slots.length + 1 := by
  have sameLength : cache.files.length = cache.slots.length := List.length_map _
  rw [length_insert, List.insert]
  split
  · omega
  · rw [List.length_cons]
    omega

/-- A file that is read keeps its entry. -/
theorem length_get (mode : Mode) (now : τ) (path : String) :
    (cache.get mode now path).1.slots.length = cache.slots.length := by
  unfold get
  split
  · cases found : cache.find? path with
    | none => rfl
    | some old =>
        have isFile : (cache.use now old).path ∈ cache.slots.map Slot.path :=
          List.mem_map.mpr ⟨old, (find?_spec found).1, rfl⟩
        have sameFiles := files_place (cache.use now old) cache.slots
        rw [if_pos isFile] at sameFiles
        simpa using congrArg List.length sameFiles
  · rfl

theorem mem_components_iff {mode : Mode} {component : Component} (enabled : mode.enabled) :
    component ∈ cache.components mode ↔ ∃ slot ∈ cache.slots, slot.component = component := by
  simp [components, visible, enabled]

variable [LinearOrder τ]

theorem usedBefore_iff :
    usedBefore slot other ↔
      slot.lastUse < other.lastUse ∨ (slot.lastUse ≤ other.lastUse ∧ slot.tick ≤ other.tick) := by
  simp [usedBefore]

theorem usedBefore_trans (first second third : Slot τ) (left : usedBefore first second)
    (right : usedBefore second third) : usedBefore first third := by
  rw [usedBefore_iff] at left right ⊢
  rcases left with before | ⟨notAfter, ticked⟩
  · rcases right with later | ⟨notBefore, -⟩
    · exact .inl (before.trans later)
    · exact .inl (before.trans_le notBefore)
  · rcases right with later | ⟨notBefore, tickedToo⟩
    · exact .inl (notAfter.trans_lt later)
    · exact .inr ⟨notAfter.trans notBefore, Nat.le_trans ticked tickedToo⟩

theorem usedBefore_total (first second : Slot τ) :
    usedBefore first second || usedBefore second first := by
  rw [Bool.or_eq_true, usedBefore_iff, usedBefore_iff]
  rcases lt_trichotomy first.lastUse second.lastUse with before | same | after
  · exact .inl (.inl before)
  · rcases Nat.le_total first.tick second.tick with ticked | ticked
    · exact .inl (.inr ⟨same.le, ticked⟩)
    · exact .inr (.inr ⟨same.ge, ticked⟩)
  · exact .inr (.inl after)

namespace IsOrdered

theorem eq_of_path_eq (ordered : cache.IsOrdered used now) (member : slot ∈ cache.slots)
    (isOther : other ∈ cache.slots) (same : slot.path = other.path) : slot = other :=
  List.inj_on_of_nodup_map ordered.distinct member isOther same

theorem find?_eq_some_iff (ordered : cache.IsOrdered used now) {path : String} :
    cache.find? path = some slot ↔ slot ∈ cache.slots ∧ slot.path = path := by
  constructor
  · exact find?_spec
  · rintro ⟨member, rfl⟩
    cases found : cache.find? slot.path with
    | none =>
        have notFound := List.find?_eq_none.mp found slot member
        simp at notFound
    | some other =>
        obtain ⟨isOther, same⟩ := find?_spec found
        rw [ordered.eq_of_path_eq member isOther same.symm]

theorem tick_le_of_usedBefore (ordered : cache.IsOrdered used now) (member : slot ∈ cache.slots)
    (isOther : other ∈ cache.slots) (isBefore : usedBefore slot other) :
    slot.tick ≤ other.tick := by
  by_contra after
  have notLater := (ordered.ordered other isOther slot member (by omega)).2
  rcases usedBefore_iff.mp isBefore with before | ⟨-, ticked⟩
  · exact absurd before (not_lt_of_ge notLater)
  · exact after ticked

/-- The files that an overflow forgets are those that were used longest ago. -/
theorem areOldest_oldest (ordered : cache.IsOrdered used now) (filled : cache.slots ≠ []) :
    AreOldest used cache.files (evictionCount cache.slots.length) (oldest cache.slots) := by
  have sorted := List.pairwise_mergeSort usedBefore_trans usedBefore_total cache.slots
  have isPerm := List.mergeSort_perm cache.slots usedBefore
  have atMost : evictionCount cache.slots.length ≤ cache.slots.length := by
    have := List.length_pos_of_ne_nil filled
    unfold evictionCount
    omega
  have distinct : ((cache.slots.mergeSort usedBefore).map Slot.path).Nodup :=
    (isPerm.map _).nodup_iff.mpr ordered.distinct
  unfold oldest
  generalize cache.slots.mergeSort usedBefore = byUse at sorted isPerm distinct
  have isSplit := List.take_append_drop (evictionCount cache.slots.length) byUse
  refine ⟨?_, ?_, ?_, ?_⟩
  · exact distinct.sublist ((List.take_sublist _ _).map _)
  · rw [List.length_map, List.length_take, isPerm.length_eq]
    omega
  · intro path member
    obtain ⟨slot, taken, rfl⟩ := List.mem_map.mp member
    exact path_mem_files (isPerm.subset (List.mem_of_mem_take taken))
  · intro old isOld path isFile notOld
    obtain ⟨slot, taken, rfl⟩ := List.mem_map.mp isOld
    obtain ⟨other, isOther, rfl⟩ := List.mem_map.mp isFile
    have isSlot := isPerm.subset (List.mem_of_mem_take taken)
    have dropped : other ∈ byUse.drop (evictionCount cache.slots.length) := by
      have member := isPerm.symm.subset isOther
      rw [← isSplit] at member
      rcases List.mem_append.mp member with also | later
      · exact absurd (List.mem_map_of_mem also) notOld
      · exact later
    rw [← isSplit, List.pairwise_append] at sorted
    have ticked := ordered.tick_le_of_usedBefore isSlot isOther
      (sorted.2.2 slot taken other dropped)
    have ne : slot.tick ≠ other.tick := fun same =>
      notOld (ordered.apart slot isSlot other isOther same ▸ List.mem_map_of_mem taken)
    exact (ordered.ordered slot isSlot other isOther (by omega)).1

/-- Slots that go do not change the order of the others. -/
theorem sublist (ordered : cache.IsOrdered used now) {next : Records τ}
    (sameTick : next.nextTick = cache.nextTick) (within : next.slots.Sublist cache.slots) :
    next.IsOrdered used now where
  distinct := ordered.distinct.sublist (within.map _)
  areUsed slot member := ordered.areUsed slot (within.subset member)
  apart slot member other isOther :=
    ordered.apart slot (within.subset member) other (within.subset isOther)
  ordered slot member other isOther :=
    ordered.ordered slot (within.subset member) other (within.subset isOther)
  ticked slot member := sameTick ▸ ordered.ticked slot (within.subset member)
  past slot member := ordered.past slot (within.subset member)

/-- A slot that is used now gets the next number, and its file is the last one used. -/
theorem touch (ordered : cache.IsOrdered used now) (slot : Slot τ) {next : Records τ} {later : τ}
    (forward : now ≤ later) (isNext : next.slots = place slot cache.slots)
    (isTick : slot.tick = cache.nextTick) (nextTick : next.nextTick = cache.nextTick + 1)
    (isUse : slot.lastUse = later) : next.IsOrdered (used ++ [slot.path]) later := by
  have members (other : Slot τ) :
      other ∈ next.slots ↔ other = slot ∨ (other ∈ cache.slots ∧ other.path ≠ slot.path) := by
    rw [isNext]
    exact mem_place_iff ordered.distinct
  refine ⟨?_, ?_, ?_, ?_, ?_, ?_⟩
  · rw [files, isNext]
    exact nodup_place slot ordered.distinct
  · intro other member
    rcases (members other).mp member with rfl | ⟨old, -⟩
    · simp
    · exact List.mem_append_left _ (ordered.areUsed other old)
  · intro left isLeft right isRight same
    rcases (members left).mp isLeft with rfl | ⟨leftOld, -⟩
    · rcases (members right).mp isRight with rfl | ⟨rightOld, -⟩
      · rfl
      · have := ordered.ticked right rightOld
        omega
    · rcases (members right).mp isRight with rfl | ⟨rightOld, -⟩
      · have := ordered.ticked left leftOld
        omega
      · exact ordered.apart left leftOld right rightOld same
  · intro left isLeft right isRight before
    rcases (members left).mp isLeft with rfl | ⟨leftOld, leftNe⟩
    · rcases (members right).mp isRight with rfl | ⟨rightOld, -⟩
      · omega
      · have := ordered.ticked right rightOld
        omega
    · rcases (members right).mp isRight with rfl | ⟨rightOld, -⟩
      · exact ⟨lastBefore_append.mpr ⟨leftNe, .inr ⟨ordered.areUsed left leftOld, rfl⟩⟩,
          isUse ▸ (ordered.past left leftOld).trans forward⟩
      · obtain ⟨isBefore, notLater⟩ := ordered.ordered left leftOld right rightOld before
        exact ⟨lastBefore_append.mpr ⟨leftNe, .inl isBefore⟩, notLater⟩
  · intro other member
    rw [nextTick]
    rcases (members other).mp member with rfl | ⟨old, -⟩
    · omega
    · have := ordered.ticked other old
      omega
  · intro other member
    rcases (members other).mp member with rfl | ⟨old, -⟩
    · exact isUse.le
    · exact (ordered.past other old).trans forward

theorem mono (ordered : cache.IsOrdered used now) {later : τ} (forward : now ≤ later) :
    cache.IsOrdered used later :=
  { ordered with past := fun slot member => (ordered.past slot member).trans forward }

end IsOrdered

/-!
A run is told by its acts, as for an expiring cache.  The mode stays as it is through the
run.
-/

/-- What can be done with a cache. -/
inductive Act where
  | put (component : Component)
  | get (path : String)
  | invalidate (path : String)
  | invalidateAll

/-- The act puts the component of a file. -/
def Act.Puts (path : String) : Act → Prop
  | .put component => component.filePath = path
  | _ => False

/-- A file leaves because of the act.  Putting a component forgets files only when there
are more than the limit with it: then a tenth of them, but at least one, namely those that
were used longest ago. -/
def Removes (cache : Records τ) (mode : Mode) (used : List String) (path : String) :
    Act → Prop
  | .put component =>
    let stored := cache.files.insert component.filePath
    cache.limit mode < stored.length ∧
      ∃ oldest, AreOldest (used ++ [component.filePath]) stored (max 1 (stored.length / 10))
        oldest ∧ path ∈ oldest
  | .get _ => False
  | .invalidate other => other = path
  | .invalidateAll => True

/-- The cache after an act. -/
def perform (cache : Records τ) (mode : Mode) (now : τ) : Act → Records τ
  | .put component => (cache.put mode now component).1
  | .get path => (cache.get mode now path).1
  | .invalidate path => cache.invalidate mode path
  | .invalidateAll => cache.invalidateAll mode

/-- The cache after acts, each at its time. -/
def run (cache : Records τ) (mode : Mode) (acts : List (τ × Act)) : Records τ :=
  acts.foldl (fun cache act => cache.perform mode act.1 act.2) cache

/-- The file that an act uses: one whose component is put, or is read. -/
def usedBy? (cache : Records τ) (mode : Mode) (now : τ) : Act → Option String
  | .put component => some component.filePath
  | .get path => (cache.get mode now path).2.map fun _ => path
  | _ => none

/-- The files that acts use, one after the other. -/
def uses (cache : Records τ) (mode : Mode) : List (τ × Act) → List String
  | [] => []
  | act :: rest =>
    (cache.usedBy? mode act.1 act.2).toList ++ (cache.perform mode act.1 act.2).uses mode rest

/-- The component was put, and since then none was put for its file and nothing removed
it. -/
def Stands (start : Records τ) (mode : Mode) (acts : List (τ × Act)) (component : Component) :
    Prop :=
  StandsSince (fun act => act.2 = .put component)
    (fun past act => act.2.Puts component.filePath ∨
      (start.run mode past).Removes mode (start.uses mode past) component.filePath act.2) acts

variable {start : Records τ} {mode : Mode} {component : Component} {act : Act}
  {acts : List (τ × Act)}

theorem run_append_singleton (cache : Records τ) (mode : Mode) (acts : List (τ × Act))
    (act : τ × Act) :
    cache.run mode (acts ++ [act]) = (cache.run mode acts).perform mode act.1 act.2 := by
  simp [run]

theorem uses_append_singleton (cache : Records τ) (mode : Mode) (acts : List (τ × Act))
    (act : τ × Act) :
    cache.uses mode (acts ++ [act]) =
      cache.uses mode acts ++ ((cache.run mode acts).usedBy? mode act.1 act.2).toList := by
  induction acts generalizing cache with
  | nil => simp [uses, run]
  | cons first rest ih =>
      rw [List.cons_append, uses, ih, uses, List.append_assoc]
      rfl

theorem perform_capacity (cache : Records τ) (mode : Mode) (now : τ) (act : Act) :
    (cache.perform mode now act).capacity = cache.capacity := by
  cases act with
  | put component =>
      simp only [perform, put]
      split
      · simp only [evict]
        split <;> rfl
      · rfl
  | get path =>
      simp only [perform, get]
      split
      · split <;> rfl
      · rfl
  | invalidate path =>
      simp only [perform, invalidate]
      split <;> rfl
  | invalidateAll =>
      simp only [perform, invalidateAll]
      split <;> rfl

theorem run_limit (cache : Records τ) (mode : Mode) (acts : List (τ × Act)) :
    (cache.run mode acts).limit mode = cache.limit mode := by
  induction acts using List.reverseRecOn with
  | nil => rfl
  | append_singleton acts act ih =>
      rw [run_append_singleton, limit, perform_capacity]
      exact ih

/-!
Putting a component is filling its place, and then forgetting what is too much.
-/

theorem IsOrdered.insert (ordered : cache.IsOrdered used now) {later : τ} (forward : now ≤ later)
    (component : Component) :
    (cache.insert later component).IsOrdered (used ++ [component.filePath]) later :=
  ordered.touch { component, uses := 1, lastUse := later, tick := cache.nextTick }
    forward rfl rfl rfl rfl

/-- What an overflow forgets, told from the files that are there. -/
theorem IsOrdered.areOldest_insert (ordered : cache.IsOrdered used now) {later : τ}
    (forward : now ≤ later) (component : Component) :
    let stored := cache.files.insert component.filePath
    AreOldest (used ++ [component.filePath]) stored (max 1 (stored.length / 10))
      (oldest (cache.insert later component).slots) := by
  intro stored
  have filled : (cache.insert later component).slots ≠ [] := by
    refine List.ne_nil_of_length_pos ?_
    rw [length_insert]
    exact List.length_pos_of_mem List.mem_insert_self
  have areOldest := (ordered.insert forward component).areOldest_oldest filled
  rw [evictionCount, length_insert] at areOldest
  exact areOldest.congr fun _ => mem_files_insert later

/-- With a limit of one or more the component that was just put is not forgotten. -/
theorem IsOrdered.new_notMem (ordered : cache.IsOrdered used now) {oldest : List String}
    (room : 1 ≤ cache.limit mode)
    (full : cache.limit mode < (cache.files.insert component.filePath).length)
    (areOldest : AreOldest (used ++ [component.filePath])
      (cache.files.insert component.filePath)
      (max 1 ((cache.files.insert component.filePath).length / 10)) oldest) :
    component.filePath ∉ oldest :=
  areOldest.last_notMem ordered.distinct.insert (by omega)

theorem removes_put_iff (ordered : cache.IsOrdered used now) {later : τ} (forward : now ≤ later)
    {path : String} :
    cache.Removes mode used path (.put component) ↔
      cache.limit mode < (cache.files.insert component.filePath).length ∧
        path ∈ oldest (cache.insert later component).slots := by
  have areOldest := ordered.areOldest_insert forward component
  refine and_congr_right fun _ => ?_
  constructor
  · rintro ⟨others, areToo, member⟩
    exact (areToo.mem_iff areOldest).mp member
  · intro member
    exact ⟨_, areOldest, member⟩

/-- The slots after a component was put. -/
theorem mem_put_iff (ordered : cache.IsOrdered used now) {later : τ} (forward : now ≤ later)
    (enabled : mode.enabled) :
    slot ∈ (cache.put mode later component).1.slots ↔
      slot ∈ (cache.insert later component).slots ∧
        ¬cache.Removes mode used slot.path (.put component) := by
  rw [removes_put_iff ordered forward, ← length_insert cache later component]
  have sameLimit : (cache.insert later component).limit mode = cache.limit mode := rfl
  simp only [put, enabled, if_true, evict, sameLimit]
  split
  · rename_i fits
    have notFull : ¬cache.limit mode < (cache.insert later component).slots.length := by omega
    exact (and_iff_left fun removes => notFull removes.1).symm
  · rename_i full
    simp only [List.mem_filter, decide_eq_true_eq]
    refine and_congr_right fun _ => ?_
    have isFull : cache.limit mode < (cache.insert later component).slots.length := by omega
    exact not_congr (and_iff_right isFull).symm

/-- An act leaves the components of the files that it neither puts nor removes. -/
theorem IsOrdered.mem_components_perform (ordered : cache.IsOrdered used now) {later : τ}
    (forward : now ≤ later) (enabled : mode.enabled) (room : 1 ≤ cache.limit mode) :
    component ∈ (cache.perform mode later act).components mode ↔
      act = .put component ∨
      (component ∈ cache.components mode ∧ ¬act.Puts component.filePath ∧
        ¬cache.Removes mode used component.filePath act) := by
  rw [mem_components_iff enabled, mem_components_iff enabled]
  cases act with
  | put new =>
      have inserted (slot : Slot τ) : slot ∈ (cache.insert later new).slots ↔ _ :=
        mem_place_iff ordered.distinct
      simp only [perform, mem_put_iff ordered forward enabled, inserted, Act.put.injEq, Act.Puts]
      constructor
      · rintro ⟨slot, ⟨rfl | ⟨old, ne⟩, kept⟩, rfl⟩
        · exact .inl rfl
        · exact .inr ⟨⟨slot, old, rfl⟩, Ne.symm ne, kept⟩
      · rintro (rfl | ⟨⟨slot, old, rfl⟩, ne, kept⟩)
        · refine ⟨_, ⟨.inl rfl, ?_⟩, rfl⟩
          rintro ⟨full, oldest, areOldest, member⟩
          exact ordered.new_notMem room full areOldest member
        · exact ⟨slot, ⟨.inr ⟨old, Ne.symm ne⟩, kept⟩, rfl⟩
  | get path =>
      simp only [perform, get, enabled, if_true, reduceCtorEq, Act.Puts, Removes, not_false_eq_true,
        and_true, false_or]
      cases found : cache.find? path with
      | none => exact Iff.rfl
      | some used =>
          have isUsed := (find?_spec found).1
          -- Only the numbers of the slot change.
          simp only [mem_place_iff ordered.distinct]
          constructor
          · rintro ⟨slot, rfl | ⟨old, -⟩, rfl⟩
            · exact ⟨used, isUsed, rfl⟩
            · exact ⟨slot, old, rfl⟩
          · rintro ⟨slot, old, rfl⟩
            by_cases same : slot.path = used.path
            · rw [ordered.eq_of_path_eq old isUsed same]
              exact ⟨_, .inl rfl, rfl⟩
            · exact ⟨slot, .inr ⟨old, same⟩, rfl⟩
  | invalidate path =>
      simp only [perform, invalidate, enabled, if_true, List.mem_filter, decide_eq_true_eq,
        reduceCtorEq, Act.Puts, Removes, not_false_eq_true, true_and, false_or]
      constructor
      · rintro ⟨slot, ⟨old, ne⟩, rfl⟩
        exact ⟨⟨slot, old, rfl⟩, Ne.symm ne⟩
      · rintro ⟨⟨slot, old, rfl⟩, ne⟩
        exact ⟨slot, ⟨old, Ne.symm ne⟩, rfl⟩
  | invalidateAll => simp [perform, invalidateAll, enabled, Act.Puts, Removes]

/-- An act keeps the order: a file that it uses comes last. -/
theorem IsOrdered.perform (ordered : cache.IsOrdered used now) {later : τ}
    (forward : now ≤ later) (enabled : mode.enabled) (act : Act) :
    (cache.perform mode later act).IsOrdered
      (used ++ (cache.usedBy? mode later act).toList) later := by
  cases act with
  | put component =>
      have inserted := ordered.insert forward component
      simp only [Records.perform, put, enabled, if_true, evict, usedBy?]
      split
      · exact inserted
      · exact inserted.sublist rfl List.filter_sublist
  | get path =>
      simp only [Records.perform, usedBy?, Records.get, enabled, if_true]
      cases found : cache.find? path with
      | none =>
          rw [Option.map_none, Option.toList_none, List.append_nil]
          exact (ordered.mono forward).sublist rfl (List.Sublist.refl _)
      | some old =>
          obtain ⟨-, rfl⟩ := find?_spec found
          exact ordered.touch (cache.use later old) forward rfl rfl rfl rfl
  | invalidate path =>
      simp only [Records.perform, Records.invalidate, enabled, if_true, usedBy?,
        Option.toList_none, List.append_nil]
      exact (ordered.mono forward).sublist rfl List.filter_sublist
  | invalidateAll =>
      simp only [Records.perform, Records.invalidateAll, enabled, if_true, usedBy?,
        Option.toList_none, List.append_nil]
      exact (ordered.mono forward).sublist rfl (List.nil_sublist _)

/-- An act leaves no more than the limit: one file can come, and then at least one goes. -/
theorem IsOrdered.fits_perform (ordered : cache.IsOrdered used now) {later : τ}
    (forward : now ≤ later) (enabled : mode.enabled)
    (fits : (cache.slots.length : Int) ≤ cache.limit mode) (act : Act) :
    ((cache.perform mode later act).slots.length : Int) ≤ cache.limit mode := by
  cases act with
  | put component =>
      have areOldest := ordered.areOldest_insert forward component
      have atMost := length_insert_le cache later component
      have sameLimit : (cache.insert later component).limit mode = cache.limit mode := rfl
      simp only [Records.perform, put, enabled, if_true, evict, sameLimit]
      split
      · assumption
      · obtain ⟨path, isOldest⟩ := List.exists_mem_of_length_pos
          (show 0 < (oldest (cache.insert later component).slots).length by
            rw [areOldest.counted]
            omega)
        obtain ⟨slot, member, rfl⟩ :=
          List.mem_map.mp ((mem_files_insert later).mpr (areOldest.areKeys isOldest))
        have fewer : ((cache.insert later component).slots.filter fun slot =>
            slot.path ∉ oldest (cache.insert later component).slots).length <
              (cache.insert later component).slots.length :=
          List.length_filter_lt_length_iff_exists.mpr ⟨slot, member, by simpa using isOldest⟩
        dsimp only
        omega
  | get path => exact (length_get mode later path).symm ▸ fits
  | invalidate path =>
      simp only [Records.perform, invalidate, enabled, if_true]
      have := List.length_filter_le (fun slot : Slot τ => decide (slot.path ≠ path)) cache.slots
      omega
  | invalidateAll =>
      simp only [Records.perform, invalidateAll, enabled, if_true, List.length_nil]
      omega

/-- A file that is read gives the component that is held for it. -/
theorem IsOrdered.get_eq_some_iff (ordered : cache.IsOrdered used now) (enabled : mode.enabled)
    {later : τ} {path : String} :
    (cache.get mode later path).2 = some component ↔
      component ∈ cache.components mode ∧ component.filePath = path := by
  rw [mem_components_iff enabled]
  simp only [get, enabled, if_true]
  cases found : cache.find? path with
  | none =>
      refine iff_of_false (fun isSome => by cases isSome) ?_
      rintro ⟨⟨slot, member, rfl⟩, same⟩
      rw [ordered.find?_eq_some_iff.mpr ⟨member, same⟩] at found
      cases found
  | some old =>
      obtain ⟨isOld, rfl⟩ := find?_spec found
      simp only [Option.some.injEq]
      constructor
      · rintro rfl
        exact ⟨⟨old, isOld, rfl⟩, rfl⟩
      · rintro ⟨⟨slot, member, rfl⟩, same⟩
        rw [ordered.eq_of_path_eq member isOld same]

/-- Putting a component when there is room forgets nothing; else it forgets the files that
were used longest ago, and these only. -/
theorem IsOrdered.mem_paths_put (ordered : cache.IsOrdered used now) {later : τ}
    (forward : now ≤ later) (enabled : mode.enabled) {path : String} :
    path ∈ (cache.put mode later component).1.paths mode ↔
      path ∈ cache.files.insert component.filePath ∧
        ¬cache.Removes mode used path (.put component) := by
  rw [paths_eq_files enabled, ← mem_files_insert later, files, files]
  constructor
  · intro member
    obtain ⟨slot, stays, rfl⟩ := List.mem_map.mp member
    obtain ⟨inserted, kept⟩ := (mem_put_iff ordered forward enabled).mp stays
    exact ⟨List.mem_map_of_mem inserted, kept⟩
  · rintro ⟨member, kept⟩
    obtain ⟨slot, inserted, rfl⟩ := List.mem_map.mp member
    exact List.mem_map_of_mem ((mem_put_iff ordered forward enabled).mpr ⟨inserted, kept⟩)

/-!
The invariant holds through a run, and with it the history tells what the cache holds.
-/

/-- The acts of a run are in the order of time; several may share one time. -/
def Forward (acts : List (τ × Act)) : Prop := acts.Pairwise fun act next => act.1 ≤ next.1

section Run

variable (enabled : mode.enabled) (empty : start.slots = [])

include enabled empty

theorem IsOrdered.run (forward : Forward acts) (late : ∀ act ∈ acts, act.1 ≤ now) :
    (start.run mode acts).IsOrdered (start.uses mode acts) now := by
  induction acts using List.reverseRecOn generalizing now with
  | nil =>
      simp only [Records.run, List.foldl_nil, uses]
      constructor <;> simp [files, empty]
  | append_singleton acts act ih =>
      obtain ⟨earlier, -, before⟩ := List.pairwise_append.mp forward
      rw [run_append_singleton, uses_append_singleton]
      have ordered : (start.run mode acts).IsOrdered (start.uses mode acts) act.1 :=
        ih earlier fun other member => before other member act (by simp)
      exact (ordered.perform le_rfl enabled act.2).mono (late act (by simp))

theorem length_run_le (room : 0 ≤ start.limit mode) (forward : Forward acts) :
    ((start.run mode acts).slots.length : Int) ≤ start.limit mode := by
  induction acts using List.reverseRecOn with
  | nil =>
      rw [Records.run, List.foldl_nil, empty]
      exact room
  | append_singleton acts act ih =>
      obtain ⟨earlier, -, before⟩ := List.pairwise_append.mp forward
      rw [run_append_singleton, ← run_limit start mode acts]
      have ordered : (start.run mode acts).IsOrdered (start.uses mode acts) act.1 :=
        IsOrdered.run enabled empty earlier fun other member => before other member act (by simp)
      exact ordered.fits_perform le_rfl enabled ((run_limit start mode acts).symm ▸ ih earlier) act.2

theorem mem_components_run (room : 1 ≤ start.limit mode) (forward : Forward acts) :
    component ∈ (start.run mode acts).components mode ↔ start.Stands mode acts component := by
  induction acts using List.reverseRecOn with
  | nil =>
      rw [mem_components_iff enabled, Records.run, List.foldl_nil, empty]
      refine iff_of_false ?_ not_standsSince_nil
      rintro ⟨slot, member, -⟩
      exact absurd member List.not_mem_nil
  | append_singleton acts act ih =>
      obtain ⟨earlier, -, before⟩ := List.pairwise_append.mp forward
      have ordered : (start.run mode acts).IsOrdered (start.uses mode acts) act.1 :=
        IsOrdered.run enabled empty earlier fun other member => before other member act (by simp)
      rw [run_append_singleton,
        ordered.mem_components_perform le_rfl enabled ((run_limit start mode acts).symm ▸ room),
        ih earlier, Stands, Stands, standsSince_append, not_or]

end Run

/-- A cache of components does what the history of its run says, at every time that no act
of the run comes after; the clock does not go back.  A read gives the component that was
put last for the file, if since then it was neither invalidated nor forgotten.  Putting a
component forgets nothing as long as the files are no more than the limit with it.  Else
exactly a tenth of them is forgotten, but at least one, namely the files that were put or
read longest ago.  The new component is always kept. -/
theorem run_forgets_oldest (enabled : mode.enabled) {capacity : Option Int}
    (room : 1 ≤ capacity.getD mode.maxSize) (forward : Forward acts)
    (late : ∀ act ∈ acts, act.1 ≤ now) :
    let start : Records τ := { capacity }
    let cache := start.run mode acts
    let used := start.uses mode acts
    ((cache.paths mode).Nodup ∧ ((cache.paths mode).length : Int) ≤ start.limit mode) ∧
    (∀ path component, (cache.get mode now path).2 = some component ↔
      component.filePath = path ∧ start.Stands mode acts component) ∧
    ∀ component,
      let stored := (cache.paths mode).insert component.filePath
      let next := (cache.put mode now component).1
      component ∈ next.components mode ∧
      ((stored.length : Int) ≤ start.limit mode → ∀ path, path ∈ next.paths mode ↔ path ∈ stored) ∧
      (start.limit mode < stored.length →
        ∃ oldest, AreOldest (used ++ [component.filePath]) stored (max 1 (stored.length / 10))
            oldest ∧
          ∀ path, path ∈ next.paths mode ↔ path ∈ stored ∧ path ∉ oldest) := by
  intro start cache used
  have sameLimit : cache.limit mode = start.limit mode := run_limit start mode acts
  have ordered : cache.IsOrdered used now := IsOrdered.run enabled rfl forward late
  have arePaths : cache.paths mode = cache.files := paths_eq_files enabled
  refine ⟨⟨?_, ?_⟩, ?_, ?_⟩
  · rw [arePaths]
    exact ordered.distinct
  · rw [arePaths, files, List.length_map]
    exact length_run_le enabled rfl (Int.le_trans (by decide) room) forward
  · intro path component
    have holds : component ∈ cache.components mode ↔ start.Stands mode acts component :=
      mem_components_run enabled rfl room forward
    rw [ordered.get_eq_some_iff enabled, holds]
    exact and_comm
  · intro component stored next
    have areOldest := ordered.areOldest_insert le_rfl component
    have isStored : stored = cache.files.insert component.filePath := by rw [← arePaths]
    refine ⟨?_, ?_, ?_⟩
    · have kept : component ∈ (cache.perform mode now (.put component)).components mode :=
        (ordered.mem_components_perform le_rfl enabled (sameLimit.symm ▸ room)).mpr (.inl rfl)
      exact kept
    · intro fits path
      rw [ordered.mem_paths_put le_rfl enabled, removes_put_iff ordered le_rfl, sameLimit, ← isStored]
      refine and_iff_left ?_
      rintro ⟨full, -⟩
      omega
    · intro full
      rw [← isStored] at areOldest
      refine ⟨_, areOldest, fun path => ?_⟩
      rw [ordered.mem_paths_put le_rfl enabled, removes_put_iff ordered le_rfl, sameLimit, ← isStored]
      exact and_congr_right fun _ => not_congr (and_iff_right full)

/-- A component of which only the file matters. -/
def sampleComponent (path : String) : Component :=
  { name := path, filePath := path, framework := unknownFramework, props := [], styles := []
    usageExamples := [], dependencies := [], category := generalCategory
    lastModified := { wall := 0, offset := none } }

/-- A run in which the clock stands still, and a read saves the older one of two files. -/
def tiedActs : List (Int × Act) :=
  [(0, .put (sampleComponent "a")), (0, .put (sampleComponent "b")), (0, .get "a"),
    (0, .put (sampleComponent "c"))]

/-- With room for two files the one that was read stands, and the other one is forgotten. -/
theorem run_tiedActs :
    let mode : Mode := { enabled := true, maxSize := 100 }
    let start : Records Int := { capacity := some 2 }
    (1 : Int) ≤ (some 2).getD mode.maxSize ∧ Forward tiedActs ∧ (∀ act ∈ tiedActs, act.1 ≤ 0) ∧
      start.Stands mode tiedActs (sampleComponent "a") ∧
      ¬start.Stands mode tiedActs (sampleComponent "b") := by
  intro mode start
  have room : (1 : Int) ≤ (some 2).getD mode.maxSize := by decide
  have forward : Forward tiedActs := by simp [Forward, tiedActs]
  have late : ∀ act ∈ tiedActs, act.1 ≤ 0 := by decide
  have enabled : mode.enabled := rfl
  have reads := (run_forgets_oldest enabled room forward late).2.1
  have kept : ((start.run mode tiedActs).get mode 0 "a").2 = some (sampleComponent "a") := by cbv
  have forgotten : ((start.run mode tiedActs).get mode 0 "b").2 = none := by cbv
  refine ⟨room, forward, late, ((reads "a" _).mp kept).2, fun stands => ?_⟩
  have found := (reads "b" _).mpr ⟨rfl, stands⟩
  rw [forgotten] at found
  cases found

end ComponentAtlas.Cache.Records
