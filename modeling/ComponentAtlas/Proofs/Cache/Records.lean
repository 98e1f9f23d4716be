/-
Module: ComponentAtlas.Proofs.Cache.Records
Purpose: What work on a cache of components keeps, whatever is put, read and forgotten.
Main exports:
  Records.Holds, Records.Becomes, Becomes.holds, Becomes.counts, paths_forget
-/
import Mathlib.Data.List.Basic
import ComponentAtlas.Cache.Records

namespace ComponentAtlas.Cache.Records

variable {τ : Type} {property : Component → Prop} {cache : Records τ} {mode : Mode}

/-- Every cached component has a property. -/
def Holds (property : Component → Prop) (cache : Records τ) : Prop :=
  ∀ slot ∈ cache.slots, property slot.component

/-!
Slots change places and counts, but what they hold was there before or was just put.
-/

theorem mem_place {slot other : Slot τ} {slots : List (Slot τ)}
    (member : other ∈ place slot slots) : other = slot ∨ other ∈ slots := by
  induction slots with
  | nil => exact .inl (List.mem_singleton.mp member)
  | cons first rest ih =>
      unfold place at member
      split at member
      · rcases List.mem_cons.mp member with isSlot | later
        · exact .inl isSlot
        · exact .inr (List.mem_cons_of_mem _ later)
      · rcases List.mem_cons.mp member with isFirst | later
        · exact .inr (isFirst ▸ List.mem_cons_self)
        · exact (ih later).imp_right (List.mem_cons_of_mem _)

theorem find?_spec {path : String} {slot : Slot τ} (found : cache.find? path = some slot) :
    slot ∈ cache.slots ∧ slot.path = path :=
  ⟨List.mem_of_find?_eq_some found, by simpa using List.find?_some found⟩

/-- Reading a file that is cached gives the component in its slot. -/
theorem get_of_find? (enabled : mode.enabled) (now : τ) {path : String} {slot : Slot τ}
    (found : cache.find? path = some slot) :
    (cache.get mode now path).2 = some slot.component := by
  simp [get, enabled, found]

theorem Holds.get (holds : cache.Holds property) (now : τ) (path : String) :
    (cache.get mode now path).1.Holds property := by
  unfold Records.get
  split
  · cases found : cache.find? path with
    | none => exact holds
    | some used =>
        intro slot member
        rcases mem_place member with rfl | old
        · exact holds used (find?_spec found).1
        · exact holds slot old
  · exact holds

theorem Holds.invalidate (holds : cache.Holds property) (path : String) :
    (cache.invalidate mode path).Holds property := by
  unfold Records.invalidate
  split
  · exact fun slot member => holds slot (List.mem_of_mem_filter member)
  · exact holds

theorem Holds.invalidateAll (holds : cache.Holds property) :
    (cache.invalidateAll mode).Holds property := by
  unfold Records.invalidateAll
  split
  · exact fun slot member => absurd member List.not_mem_nil
  · exact holds

/-- Files that were forgotten one after the other are not in the cache any more. -/
theorem paths_forget (files : List String) (cache : Records τ) :
    (files.foldl (fun cache file => cache.invalidate mode file) cache).paths mode =
      (cache.paths mode).filter fun file => file ∉ files := by
  induction files generalizing cache with
  | nil => simp
  | cons file rest ih =>
      rw [List.foldl_cons, ih]
      cases enabled : mode.enabled with
      | false => simp [paths, visible, enabled]
      | true =>
          simp only [paths, visible, invalidate, enabled, if_true, List.filter_map,
            List.filter_filter]
          congr 1
          refine List.filter_congr fun slot _ => ?_
          by_cases same : slot.path = file <;> simp [same]

variable [LT τ] [DecidableLT τ]

theorem mem_evict {slot : Slot τ} (member : slot ∈ (cache.evict mode).1.slots) :
    slot ∈ cache.slots := by
  unfold evict at member
  split at member
  · exact member
  · exact List.mem_of_mem_filter member

theorem Holds.put (holds : cache.Holds property) (now : τ) {component : Component}
    (new : property component) : (cache.put mode now component).1.Holds property := by
  unfold Records.put
  split
  · intro slot member
    rcases mem_place (mem_evict member) with rfl | old
    · exact new
    · exact holds slot old
  · exact holds

/-- What is put into an empty cache is all that it holds. -/
theorem put_slots_of_empty (enabled : mode.enabled) (empty : cache.slots = [])
    (fits : 1 ≤ cache.limit mode) (now : τ) (component : Component) :
    (cache.put mode now component).1.slots =
      [{ component, uses := 1, lastUse := now, tick := cache.nextTick }] := by
  have keepsAll : 1 ≤ cache.capacity.getD mode.maxSize := fits
  simp [put, enabled, insert, empty, place, evict, limit, keepsAll]

/-!
What a program can do to a cache that it was given is a series of the operations of the
cache.
-/

/-- One cache becomes another one by its own operations, in any order and in any mode.
Only components of a kind are put into it. -/
inductive Becomes (kind : Component → Prop) (start : Records τ) : Records τ → Prop where
  | unchanged : Becomes kind start start
  | put {cache : Records τ} (before : Becomes kind start cache) (mode : Mode) (now : τ)
      {component : Component} (isKind : kind component) :
      Becomes kind start (cache.put mode now component).1
  | get {cache : Records τ} (before : Becomes kind start cache) (mode : Mode) (now : τ)
      (path : String) : Becomes kind start (cache.get mode now path).1
  | invalidate {cache : Records τ} (before : Becomes kind start cache) (mode : Mode)
      (path : String) : Becomes kind start (cache.invalidate mode path)
  | invalidateAll {cache : Records τ} (before : Becomes kind start cache) (mode : Mode) :
      Becomes kind start (cache.invalidateAll mode)

namespace Becomes

variable {kind : Component → Prop} {start : Records τ}

theorem trans {middle : Records τ} (first : start.Becomes kind middle)
    (second : middle.Becomes kind cache) : start.Becomes kind cache := by
  induction second with
  | unchanged => exact first
  | put _ mode now isKind ih => exact ih.put mode now isKind
  | get _ mode now path ih => exact ih.get mode now path
  | invalidate _ mode path ih => exact ih.invalidate mode path
  | invalidateAll _ mode ih => exact ih.invalidateAll mode

theorem mono {other : Component → Prop} (becomes : start.Becomes kind cache)
    (wider : ∀ component, kind component → other component) : start.Becomes other cache := by
  induction becomes with
  | unchanged => exact .unchanged
  | put _ mode now isKind ih => exact ih.put mode now (wider _ isKind)
  | get _ mode now path ih => exact ih.get mode now path
  | invalidate _ mode path ih => exact ih.invalidate mode path
  | invalidateAll _ mode ih => exact ih.invalidateAll mode

/-- A property of what is cached and of what is put stays. -/
theorem holds (becomes : start.Becomes kind cache)
    (isKept : ∀ component, kind component → property component)
    (holds : start.Holds property) : cache.Holds property := by
  induction becomes with
  | unchanged => exact holds
  | put _ mode now isKind ih => exact ih.put now (isKept _ isKind)
  | get _ mode now path ih => exact ih.get now path
  | invalidate _ mode path ih => exact ih.invalidate path
  | invalidateAll _ mode ih => exact ih.invalidateAll

/-- The capacity stays, and reads are counted on. -/
theorem counts (becomes : start.Becomes kind cache) :
    cache.capacity = start.capacity ∧ start.hits ≤ cache.hits ∧ start.misses ≤ cache.misses := by
  induction becomes with
  | unchanged => exact ⟨rfl, Nat.le_refl _, Nat.le_refl _⟩
  | @put cache _ mode now component _ ih =>
      unfold Records.put
      split
      · unfold evict
        split <;> exact ih
      · exact ih
  | @get cache _ mode now path ih =>
      obtain ⟨sameCapacity, hits, misses⟩ := ih
      unfold Records.get
      split
      · split
        · exact ⟨sameCapacity, hits, Nat.le_succ_of_le misses⟩
        · exact ⟨sameCapacity, Nat.le_succ_of_le hits, misses⟩
      · exact ⟨sameCapacity, hits, misses⟩
  | invalidate _ mode path ih =>
      unfold Records.invalidate
      split <;> exact ih
  | invalidateAll _ mode ih =>
      unfold Records.invalidateAll
      split <;> exact ih

end Becomes

end ComponentAtlas.Cache.Records
