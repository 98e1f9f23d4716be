/-
Module: ComponentAtlas.Proofs.Cache.Capacity
Purpose: How many components a cache holds while the settings change its limit.
Main exports:
  Records.length_evict, Records.length_put, Governed, Governed.run, Governed.limits,
  Governed.IsBounded, Governed.run_put_length
-/
import Mathlib
import ComponentAtlas.Catalog.Basic
import ComponentAtlas.Proofs.Cache.RecordsRun
import ComponentAtlas.Proofs.Settings.Updating

namespace ComponentAtlas.Cache

/-!
An overflow forgets a fixed share of the entries, whatever the limit is by then.  The
times of the uses do not matter for the count, so nothing is asked of their order.
-/

namespace Records

variable {τ : Type} {cache : Records τ} {mode : Mode} {slots : List (Slot τ)}

theorem nodup_get (distinct : cache.files.Nodup) (now : τ) (path : String) :
    (cache.get mode now path).1.files.Nodup := by
  unfold get
  split
  · split
    · exact distinct
    · exact nodup_place _ distinct
  · exact distinct

theorem invalidate_sublist (path : String) :
    (cache.invalidate mode path).slots.Sublist cache.slots := by
  unfold invalidate
  split
  · exact List.filter_sublist
  · exact List.Sublist.refl _

theorem invalidateAll_sublist : (cache.invalidateAll mode).slots.Sublist cache.slots := by
  unfold invalidateAll
  split
  · exact List.nil_sublist _
  · exact List.Sublist.refl _

/-- The number of entries there are with one for the file of a component. -/
def sizeWith (cache : Records τ) (component : Component) : Nat :=
  (cache.files.insert component.filePath).length

theorem sizeWith_le (cache : Records τ) (component : Component) :
    cache.sizeWith component ≤ cache.slots.length + 1 := by
  unfold sizeWith List.insert
  split <;> simp [files]

variable [LT τ] [DecidableLT τ]

/-- The slots that an overflow leaves are those that come later in the order of use. -/
theorem filter_oldest_perm (distinct : (slots.map Slot.path).Nodup) :
    (slots.filter fun slot => slot.path ∉ oldest slots).Perm
      ((slots.mergeSort usedBefore).drop (evictionCount slots.length)) := by
  have isPerm := List.mergeSort_perm slots usedBefore
  have apart := (isPerm.map Slot.path).nodup_iff.mpr distinct
  unfold oldest
  generalize slots.mergeSort usedBefore = byUse at isPerm apart
  generalize evictionCount slots.length = count
  refine (isPerm.symm.filter _).trans (List.Perm.of_eq ?_)
  have isSplit := List.take_append_drop count byUse
  rw [← isSplit, List.map_append, List.nodup_append] at apart
  conv_lhs => rw [← isSplit]
  rw [List.filter_append]
  have noneTaken : (byUse.take count).filter
      (fun slot => slot.path ∉ (byUse.take count).map Slot.path) = [] :=
    List.filter_eq_nil_iff.mpr fun slot taken => by
      rw [decide_not, Bool.not_eq_true', decide_eq_false_iff_not, not_not]
      exact List.mem_map_of_mem taken
  have allDropped : (byUse.drop count).filter
      (fun slot => slot.path ∉ (byUse.take count).map Slot.path) = byUse.drop count :=
    List.filter_eq_self.mpr fun slot dropped => decide_eq_true fun member =>
      apart.2.2 slot.path member slot.path (List.mem_map_of_mem dropped) rfl
  rw [List.take_append_drop, noneTaken, allDropped, List.nil_append]

/-- An overflow forgets a tenth of the entries, but at least one. -/
theorem length_evict (distinct : cache.files.Nodup) :
    (cache.evict mode).1.slots.length =
      if (cache.slots.length : Int) ≤ cache.limit mode then cache.slots.length
      else cache.slots.length - evictionCount cache.slots.length := by
  unfold evict
  split
  · rfl
  · rw [(filter_oldest_perm distinct).length_eq, List.length_drop, List.length_mergeSort]

/-- The number of entries after a component was put. -/
theorem length_put (distinct : cache.files.Nodup) (enabled : mode.enabled) (now : τ)
    (component : Component) :
    (cache.put mode now component).1.slots.length =
      if (cache.sizeWith component : Int) ≤ cache.limit mode then cache.sizeWith component
      else cache.sizeWith component - max 1 (cache.sizeWith component / 10) := by
  have inserted : (cache.insert now component).files.Nodup := nodup_place _ distinct
  rw [put, if_pos enabled, length_evict inserted, length_insert]
  rfl

theorem nodup_put (distinct : cache.files.Nodup) (mode : Mode) (now : τ)
    (component : Component) :
    (cache.put mode now component).1.files.Nodup := by
  have inserted : (cache.insert now component).files.Nodup := nodup_place _ distinct
  unfold put evict
  split
  · split
    · exact inserted
    · exact inserted.sublist (List.filter_sublist.map _)
  · exact distinct

end Records

/-- A cache of components under the settings of a project. -/
structure Governed (τ : Type) where
  workspace : Workspace
  cache : Records τ

namespace Governed

open Settings

variable {τ : Type}

/-- How the settings want components to be cached by now. -/
def mode (governed : Governed τ) : Mode := governed.workspace.cacheMode

/-- The number of entries that may be kept by now. -/
def limit (governed : Governed τ) : Int := governed.cache.limit governed.mode

/-- Each file has one entry, and there are no more entries than one of some limits
allows. -/
structure IsBounded (tops : List Int) (governed : Governed τ) : Prop where
  distinct : governed.cache.files.Nodup
  fits : governed.cache.slots = [] ∨ ∃ top ∈ tops, (governed.cache.slots.length : Int) ≤ top

variable {tops : List Int} {governed start : Governed τ}

namespace IsBounded

theorem of_empty (empty : governed.cache.slots = []) : governed.IsBounded [] where
  distinct := by simp [Records.files, empty]
  fits := .inl empty

theorem mono (bounded : governed.IsBounded tops) {more : List Int}
    (within : ∀ top ∈ tops, top ∈ more) : governed.IsBounded more where
  distinct := bounded.distinct
  fits := bounded.fits.imp_right fun ⟨top, member, fits⟩ => ⟨top, within top member, fits⟩

/-- Entries that go leave the bound. -/
theorem of_length_le (bounded : governed.IsBounded tops) {next : Governed τ}
    (distinct : next.cache.files.Nodup)
    (fewer : next.cache.slots.length ≤ governed.cache.slots.length) : next.IsBounded tops where
  distinct := distinct
  fits := by
    rcases bounded.fits with empty | ⟨top, member, fits⟩
    · rw [empty] at fewer
      exact .inl (List.eq_nil_of_length_eq_zero (Nat.le_zero.mp fewer))
    · exact .inr ⟨top, member, by omega⟩

theorem of_sublist (bounded : governed.IsBounded tops) {next : Governed τ}
    (within : next.cache.slots.Sublist governed.cache.slots) : next.IsBounded tops :=
  bounded.of_length_le (bounded.distinct.sublist (within.map _)) within.length_le

end IsBounded

/-- What can happen to a cache and to the settings that it follows. -/
inductive Act where
  | put (component : Component)
  | get (path : String)
  | invalidate (path : String)
  | invalidateAll
  /-- Any change of the settings: caching is switched on or off, or the limit changes. -/
  | update (updates : Entries)

variable [LT τ] [DecidableLT τ]

/-- The cache and the settings after an act. -/
def perform (governed : Governed τ) (now : τ) : Act → Governed τ
  | .put component =>
    { governed with cache := (governed.cache.put governed.mode now component).1 }
  | .get path => { governed with cache := (governed.cache.get governed.mode now path).1 }
  | .invalidate path => { governed with cache := governed.cache.invalidate governed.mode path }
  | .invalidateAll => { governed with cache := governed.cache.invalidateAll governed.mode }
  | .update updates => { governed with workspace := (governed.workspace.update updates).1 }

/-- The cache and the settings after acts, each at its time. -/
def run (governed : Governed τ) (acts : List (τ × Act)) : Governed τ :=
  acts.foldl (fun governed act => governed.perform act.1 act.2) governed

/-- The limit that an act goes by: none unless it puts a component while caching is
switched on. -/
def limit? (governed : Governed τ) : Act → Option Int
  | .put _ => if governed.mode.enabled then some governed.limit else none
  | _ => none

/-- The limits that acts go by, one after the other. -/
def limits (governed : Governed τ) : List (τ × Act) → List Int
  | [] => []
  | act :: rest =>
    (governed.limit? act.2).toList ++ (governed.perform act.1 act.2).limits rest

/-- What comes and what goes when a component is put. -/
theorem length_perform_put (distinct : governed.cache.files.Nodup)
    (enabled : governed.mode.enabled) (now : τ) (component : Component) :
    (governed.perform now (.put component)).cache.slots.length =
      if (governed.cache.sizeWith component : Int) ≤ governed.limit then
        governed.cache.sizeWith component
      else governed.cache.sizeWith component - max 1 (governed.cache.sizeWith component / 10) :=
  Records.length_put distinct enabled now component

namespace IsBounded

/-- A component that is put either has room below the limit, or at least as many entries
go as come. -/
theorem put (bounded : governed.IsBounded tops) (enabled : governed.mode.enabled) (now : τ)
    (component : Component) :
    (governed.perform now (.put component)).IsBounded (tops ++ [governed.limit]) := by
  have distinct := Records.nodup_put bounded.distinct governed.mode now component
  have counted := length_perform_put bounded.distinct enabled now component
  have atMost := governed.cache.sizeWith_le component
  by_cases room : (governed.cache.sizeWith component : Int) ≤ governed.limit
  · rw [if_pos room] at counted
    exact ⟨distinct, .inr ⟨governed.limit, by simp, counted ▸ room⟩⟩
  · rw [if_neg room] at counted
    refine (bounded.mono fun _ => List.mem_append_left _).of_length_le distinct ?_
    omega

/-- An act goes by the limits that there are by then. -/
theorem perform (bounded : governed.IsBounded tops) (now : τ) (act : Act) :
    (governed.perform now act).IsBounded (tops ++ (governed.limit? act).toList) := by
  cases act with
  | put component =>
      cases enabled : governed.mode.enabled with
      | true =>
          rw [limit?, if_pos enabled]
          exact bounded.put enabled now component
      | false =>
          have unchanged : governed.perform now (.put component) = governed := by
            simp [Governed.perform, Records.put, enabled]
          rw [unchanged]
          exact bounded.mono fun _ => List.mem_append_left _
  | get path =>
      refine (bounded.mono fun _ => List.mem_append_left _).of_length_le ?_ ?_
      · exact Records.nodup_get bounded.distinct now path
      · exact (Records.length_get governed.mode now path).le
  | invalidate path =>
      exact (bounded.mono fun _ => List.mem_append_left _).of_sublist
        (Records.invalidate_sublist path)
  | invalidateAll =>
      exact (bounded.mono fun _ => List.mem_append_left _).of_sublist Records.invalidateAll_sublist
  | update updates =>
      exact (bounded.mono fun _ => List.mem_append_left _).of_sublist (List.Sublist.refl _)

theorem run (bounded : governed.IsBounded tops) (acts : List (τ × Act)) :
    (governed.run acts).IsBounded (tops ++ governed.limits acts) := by
  induction acts generalizing governed tops with
  | nil => simpa [limits, Governed.run] using bounded
  | cons act rest ih =>
      rw [limits, ← List.append_assoc]
      exact ih (bounded.perform act.1 act.2)

end IsBounded

/-- In a run from an empty cache, a component that is put while caching is switched on
leaves all entries there are with it, if these are no more than the limit by then, and
else a tenth of them less, but at least one less.  So there are never more than the
largest limit that a put went by, and no more than the limit by now if that is it. -/
theorem run_put_length (empty : start.cache.slots = []) (acts : List (τ × Act)) (now : τ)
    (component : Component) (enabled : (start.run acts).mode.enabled) :
    let before := start.run acts
    let stored := before.cache.sizeWith component
    let kept := (before.perform now (.put component)).cache.slots.length
    kept = (if (stored : Int) ≤ before.limit then stored else stored - max 1 (stored / 10)) ∧
      (∃ top ∈ before.limit :: start.limits acts, (kept : Int) ≤ max 0 top) ∧
      ((∀ earlier ∈ start.limits acts, earlier ≤ before.limit) →
        (kept : Int) ≤ max 0 before.limit) := by
  intro before stored kept
  have bounded : before.IsBounded (start.limits acts) := (IsBounded.of_empty empty).run acts
  have fits : ∃ top ∈ before.limit :: start.limits acts, (kept : Int) ≤ max 0 top := by
    rcases (bounded.put enabled now component).fits with none | ⟨top, member, atMost⟩
    · have isZero : kept = 0 := List.length_eq_zero_iff.mpr none
      exact ⟨before.limit, List.mem_cons_self, by omega⟩
    · refine ⟨top, ?_, atMost.trans (le_max_right 0 top)⟩
      rw [List.mem_cons, or_comm]
      simpa using member
  refine ⟨length_perform_put bounded.distinct enabled now component, fits, fun neverLower => ?_⟩
  obtain ⟨top, member, atMost⟩ := fits
  refine atMost.trans (max_le_max_left 0 ?_)
  rcases List.mem_cons.mp member with rfl | earlier
  · exact le_rfl
  · exact neverLower top earlier

/-- A fresh cache under the default settings. -/
def sampleStart : Governed Float := { workspace := Workspace.sampleWorkspace, cache := {} }

/-- Three components are put, and then the limit is lowered to one. -/
def loweringActs : List (Float × Act) :=
  [(0, .put (Records.sampleComponent "a")), (0, .put (Records.sampleComponent "b")),
    (0, .put (Records.sampleComponent "c")), (0, .update [(.text "cacheMaxSize", .int 1)])]

/-- A limit that was lowered is exceeded after the next put. -/
theorem length_after_lowering :
    let before := sampleStart.run loweringActs
    let after := before.perform 0 (.put (Records.sampleComponent "d"))
    before.mode.enabled ∧ before.limit = 1 ∧ after.limit = 1 ∧
      ¬(after.cache.slots.length : Int) ≤ after.limit := by
  intro before after
  have enabled : before.mode.enabled := by decide +kernel
  have isLimit : before.limit = 1 := by decide +kernel
  have isNext : after.limit = 1 := by decide +kernel
  have isSize : before.cache.sizeWith (Records.sampleComponent "d") = 4 := by decide +kernel
  have distinct := ((IsBounded.of_empty rfl).run loweringActs : before.IsBounded _).distinct
  have counted := length_perform_put distinct enabled 0 (Records.sampleComponent "d")
  rw [isSize, isLimit, if_neg (by decide)] at counted
  refine ⟨enabled, isLimit, isNext, ?_⟩
  rw [isNext, counted]
  decide

/-- The three entries that stay are no more than the limit was when they were put. -/
theorem run_put_loweringActs :
    let before := sampleStart.run loweringActs
    let after := before.perform 0 (.put (Records.sampleComponent "d"))
    sampleStart.cache.slots = [] ∧ before.mode.enabled ∧
      before.limit :: sampleStart.limits loweringActs = [1, 1000, 1000, 1000] ∧
      after.cache.slots.length = 3 ∧
      ∃ top ∈ before.limit :: sampleStart.limits loweringActs,
        (after.cache.slots.length : Int) ≤ max 0 top := by
  intro before after
  have enabled : before.mode.enabled := by decide +kernel
  have areLimits : before.limit :: sampleStart.limits loweringActs = [1, 1000, 1000, 1000] := by
    decide +kernel
  have isSize : before.cache.sizeWith (Records.sampleComponent "d") = 4 := by decide +kernel
  obtain ⟨counted, fits, -⟩ :=
    run_put_length rfl loweringActs 0 (Records.sampleComponent "d") enabled
  rw [isSize, (List.cons.inj areLimits).1, if_neg (by decide)] at counted
  exact ⟨rfl, enabled, areLimits, counted, fits⟩

end Governed

end ComponentAtlas.Cache
