/-
Module: ComponentAtlas.Proofs.Cache.Expiring
Purpose: What work on an expiring cache keeps, whatever is read, written and expires.
Main exports:
  Expiring.Holds, Expiring.Becomes, get_eq_some, Becomes.keeps
-/
import Mathlib.Data.List.Basic
import ComponentAtlas.Cache.Expiring

namespace ComponentAtlas.Cache.Expiring

variable {τ ν : Type} {property : String → ν → Prop} {cache : Expiring τ ν}

/-- Every entry has a property, be it expired or not. -/
def Holds (property : String → ν → Prop) (cache : Expiring τ ν) : Prop :=
  ∀ lease ∈ cache.leases, property lease.key lease.value

theorem find?_spec {key : String} {lease : Lease τ ν} (found : cache.find? key = some lease) :
    lease ∈ cache.leases ∧ lease.key = key :=
  ⟨List.mem_of_find?_eq_some found, by simpa using List.find?_some found⟩

theorem mem_makeRoom {key : String} {lease : Lease τ ν} (member : lease ∈ cache.makeRoom key) :
    lease ∈ cache.leases ∧ lease.key ≠ key := by
  unfold makeRoom at member
  split at member
  · exact ⟨List.mem_of_mem_filter member, by simpa using List.of_mem_filter member⟩
  · rename_i notFound
    have isOld : lease ∈ cache.leases := by
      split at member
      · exact List.mem_of_mem_drop member
      · exact member
    exact ⟨isOld, by simpa using List.find?_eq_none.mp notFound lease isOld⟩

/-- Writing a key asks nothing of what was kept under it. -/
theorem holds_set [Add τ] (now : τ) {key : String} {value : ν} (lifetime : Option τ)
    (others : ∀ lease ∈ cache.leases, lease.key ≠ key → property lease.key lease.value)
    (new : property key value) : (cache.set now key value lifetime).Holds property := by
  intro lease member
  rcases List.mem_append.mp member with old | isNew
  · exact others lease (mem_makeRoom old).1 (mem_makeRoom old).2
  · cases List.mem_singleton.mp isNew
    exact new

theorem holds_clear (property : String → ν → Prop) (cache : Expiring τ ν) :
    cache.clear.Holds property :=
  fun _ member => absurd member List.not_mem_nil

section Reading

variable [LE τ] [DecidableLE τ]

/-- A value that is read was kept under its key. -/
theorem get_eq_some {now : τ} {key : String} {value : ν}
    (found : (cache.get now key).2 = some value) :
    ∃ lease ∈ cache.leases, lease.key = key ∧ lease.value = value := by
  unfold get at found
  split at found
  · cases found
  · rename_i lease isLease
    obtain ⟨member, sameKey⟩ := find?_spec isLease
    split at found
    · cases found
    · cases found
      exact ⟨lease, member, sameKey, rfl⟩

theorem Holds.get (holds : cache.Holds property) (now : τ) (key : String) :
    (cache.get now key).1.Holds property := by
  unfold Expiring.get
  split
  · exact holds
  · rename_i found isFound
    split
    · exact fun lease member => holds lease (List.mem_of_mem_filter member)
    · intro lease member
      rcases List.mem_append.mp member with old | isLast
      · exact holds lease (List.mem_of_mem_filter old)
      · cases List.mem_singleton.mp isLast
        exact holds _ (find?_spec isFound).1

end Reading

variable [LE τ] [DecidableLE τ] [Add τ]

/-- One cache becomes another one by reading, writing and clearing, in any order. -/
inductive Becomes (start : Expiring τ ν) : Expiring τ ν → Prop where
  | unchanged : Becomes start start
  | get {cache : Expiring τ ν} (before : Becomes start cache) (now : τ) (key : String) :
      Becomes start (cache.get now key).1
  | set {cache : Expiring τ ν} (before : Becomes start cache) (now : τ) (key : String)
      (value : ν) (lifetime : Option τ) : Becomes start (cache.set now key value lifetime)
  | clear {cache : Expiring τ ν} (before : Becomes start cache) : Becomes start cache.clear

namespace Becomes

variable {start : Expiring τ ν}

theorem trans {middle : Expiring τ ν} (first : start.Becomes middle)
    (second : middle.Becomes cache) : start.Becomes cache := by
  induction second with
  | unchanged => exact first
  | get _ now key ih => exact ih.get now key
  | set _ now key value lifetime ih => exact ih.set now key value lifetime
  | clear _ ih => exact ih.clear

/-- The limit and the usual lifetime stay. -/
theorem keeps (becomes : start.Becomes cache) :
    cache.maxSize = start.maxSize ∧ cache.lifetime = start.lifetime := by
  induction becomes with
  | unchanged => exact ⟨rfl, rfl⟩
  | get _ now key ih =>
      unfold Expiring.get
      split
      · exact ih
      · split <;> exact ih
  | set _ now key value lifetime ih => exact ih
  | clear _ ih => exact ih

end Becomes

end ComponentAtlas.Cache.Expiring
