/-
Module: ComponentAtlas.Proofs.Cache.ExpiringRun
Purpose: Runs of an expiring cache: what it holds is told by the history of the run.
Main exports:
  Expiring.IsOrdered, Expiring.Act, Expiring.run, Expiring.uses, Expiring.Removes,
  Expiring.Stands, mem_perform, mem_run_iff, get_run_eq_some_iff, get_run_of_floats,
  run_tells_history
-/
import Mathlib.Data.Int.Order.Basic
import Mathlib.Data.List.Nodup
import Mathlib.Order.Lattice
import ComponentAtlas.Proofs.Cache.Expiring
import ComponentAtlas.Proofs.Cache.History
import ComponentAtlas.Proofs.Decimal.Order

namespace ComponentAtlas.Cache.Expiring

variable {τ ν : Type} {cache : Expiring τ ν} {used : List String} {key : String}
  {lease : Lease τ ν}

/-!
The list of entries is in the order of the last uses.  This is the only invariant; that
the keys are distinct is part of it.
-/

/-- The keys stand in the order of their last use, and there are not too many. -/
structure IsOrdered (used : List String) (cache : Expiring τ ν) : Prop where
  ordered : cache.keys.Pairwise (LastBefore used)
  areUsed : ∀ key ∈ cache.keys, key ∈ used
  fits : cache.keys.length ≤ cache.maxSize
  room : 1 ≤ cache.maxSize

theorem key_mem_keys (member : lease ∈ cache.leases) : lease.key ∈ cache.keys :=
  List.mem_map_of_mem member

theorem find?_eq_none_iff : cache.find? key = none ↔ key ∉ cache.keys := by
  simp [find?, keys]

/-- A cache that was opened is empty, and has room. -/
theorem empty?_spec {maxSize : Int} {lifetime : τ}
    (opened : empty? maxSize lifetime = .ok cache) :
    cache.leases = [] ∧ (cache.maxSize : Int) = maxSize ∧ cache.IsOrdered [] := by
  unfold empty? at opened
  split at opened
  · cases opened
  · rename_i positive
    cases opened
    refine ⟨rfl, by dsimp only; omega, ?_⟩
    exact { ordered := List.Pairwise.nil, areUsed := by simp [keys], fits := by simp [keys],
            room := by dsimp only; omega }

namespace IsOrdered

theorem distinct (ordered : cache.IsOrdered used) : cache.keys.Nodup := by
  refine ordered.ordered.imp ?_
  rintro key _ isBefore rfl
  exact not_lastBefore_self isBefore

/-- There is one entry for a key. -/
theorem eq_of_key_eq (ordered : cache.IsOrdered used) {other : Lease τ ν}
    (member : lease ∈ cache.leases) (isOther : other ∈ cache.leases)
    (same : lease.key = other.key) : lease = other :=
  List.inj_on_of_nodup_map ordered.distinct member isOther same

theorem find?_eq_some_iff (ordered : cache.IsOrdered used) :
    cache.find? key = some lease ↔ lease ∈ cache.leases ∧ lease.key = key := by
  constructor
  · exact find?_spec
  · rintro ⟨member, rfl⟩
    cases found : cache.find? lease.key with
    | none => exact absurd (key_mem_keys member) (find?_eq_none_iff.mp found)
    | some other =>
        obtain ⟨isOther, same⟩ := find?_spec found
        rw [ordered.eq_of_key_eq member isOther same.symm]

/-- The first key of the list was used longest ago. -/
theorem areOldest_head (ordered : cache.IsOrdered used) {first : Lease τ ν}
    {rest : List (Lease τ ν)} (split : cache.leases = first :: rest) :
    AreOldest used cache.keys 1 [first.key] := by
  have isSplit : cache.keys = first.key :: rest.map (·.key) := by rw [keys, split]; rfl
  have pairwise := ordered.ordered
  rw [isSplit] at pairwise ⊢
  refine ⟨List.nodup_singleton _, rfl, by simp, ?_⟩
  intro old isFirst other member notFirst
  obtain rfl : old = first.key := by simpa using isFirst
  rcases List.mem_cons.mp member with rfl | later
  · simp at notFirst
  · exact (List.pairwise_cons.mp pairwise).1 other later

/-- A full cache has a key that was used longest ago, and it is the first one. -/
theorem exists_oldest (ordered : cache.IsOrdered used)
    (full : cache.keys.length = cache.maxSize) :
    ∃ first rest, cache.leases = first :: rest ∧ AreOldest used cache.keys 1 [first.key] := by
  have length : cache.keys.length = cache.leases.length := List.length_map ..
  obtain ⟨first, rest, split⟩ := List.exists_cons_of_length_pos
    (show 0 < cache.leases.length by have := ordered.room; omega)
  exact ⟨first, rest, split, ordered.areOldest_head split⟩

theorem areOldest_iff (ordered : cache.IsOrdered used) {first : Lease τ ν}
    {rest : List (Lease τ ν)} (split : cache.leases = first :: rest) :
    AreOldest used cache.keys 1 [key] ↔ key = first.key := by
  have isOldest := ordered.areOldest_head split
  constructor
  · intro also
    have isFirst : key ∈ [first.key] := (also.mem_iff isOldest).mp (List.mem_singleton_self key)
    exact List.mem_singleton.mp isFirst
  · rintro rfl
    exact isOldest

/-- When a new key comes to a full cache, the entry that goes is the one whose key was
used longest ago. -/
theorem mem_makeRoom_iff (ordered : cache.IsOrdered used) :
    lease ∈ cache.makeRoom key ↔
      lease ∈ cache.leases ∧ lease.key ≠ key ∧
        ¬(key ∉ cache.keys ∧ cache.keys.length = cache.maxSize ∧
          AreOldest used cache.keys 1 [lease.key]) := by
  unfold makeRoom
  cases found : cache.find? key with
  | some old =>
      have stored : key ∈ cache.keys := (find?_spec found).2 ▸ key_mem_keys (find?_spec found).1
      simp [without, stored]
  | none =>
      have new : key ∉ cache.keys := find?_eq_none_iff.mp found
      have ne : lease ∈ cache.leases → lease.key ≠ key := fun member same =>
        new (same ▸ key_mem_keys member)
      have length : cache.keys.length = cache.leases.length := List.length_map ..
      have fits := ordered.fits
      dsimp only
      split
      · rename_i full
        obtain ⟨first, rest, split, -⟩ := ordered.exists_oldest (by omega)
        have distinct := ordered.distinct
        rw [keys, split, List.map_cons, List.nodup_cons] at distinct
        have kept : lease ∈ rest ↔ lease ∈ cache.leases ∧ lease.key ≠ first.key := by
          constructor
          · intro later
            exact ⟨split ▸ List.mem_cons_of_mem _ later,
              fun same => distinct.1 (same ▸ List.mem_map_of_mem later)⟩
          · rintro ⟨member, notFirst⟩
            rw [split] at member
            rcases List.mem_cons.mp member with rfl | later
            · exact absurd rfl notFirst
            · exact later
        rw [ordered.areOldest_iff split]
        rw [split, List.drop_one, List.tail_cons, kept, ← split]
        constructor
        · rintro ⟨member, notFirst⟩
          exact ⟨member, ne member, fun ⟨_, _, isFirst⟩ => notFirst isFirst⟩
        · rintro ⟨member, -, stays⟩
          exact ⟨member, fun isFirst => stays ⟨new, by omega, isFirst⟩⟩
      · rename_i notFull
        constructor
        · intro member
          exact ⟨member, ne member, fun ⟨_, full, _⟩ => notFull (by omega)⟩
        · exact And.left

/-- A new key that comes to a full cache drives out the key that was used longest ago.  All
others stay in their order. -/
theorem keys_makeRoom_of_full (ordered : cache.IsOrdered used) (new : key ∉ cache.keys)
    (full : cache.keys.length = cache.maxSize) :
    ∃ oldest others, cache.keys = oldest :: others ∧ AreOldest used cache.keys 1 [oldest] ∧
      (cache.makeRoom key).map (·.key) = others := by
  obtain ⟨first, rest, split, isOldest⟩ := ordered.exists_oldest full
  have length : cache.keys.length = cache.leases.length := List.length_map ..
  refine ⟨first.key, rest.map (·.key), by rw [keys, split]; rfl, isOldest, ?_⟩
  rw [makeRoom, find?_eq_none_iff.mpr new]
  dsimp only
  rw [if_pos (by omega), split]
  rfl

variable {next : Expiring τ ν}

/-- Entries that go do not change the order of the others. -/
theorem sublist (ordered : cache.IsOrdered used) (sameSize : next.maxSize = cache.maxSize)
    (within : next.leases.Sublist cache.leases) : next.IsOrdered used where
  ordered := ordered.ordered.sublist (within.map _)
  areUsed key member := ordered.areUsed key ((within.map _).subset member)
  fits := by
    rw [sameSize]
    exact Nat.le_trans (within.map _).length_le ordered.fits
  room := sameSize ▸ ordered.room

/-- A key that is used goes behind the others. -/
theorem push (ordered : cache.IsOrdered used) (lease : Lease τ ν) (sameSize : next.maxSize = cache.maxSize)
    {others : List (Lease τ ν)} (isNext : next.leases = others ++ [lease])
    (within : others.Sublist cache.leases) (new : ∀ other ∈ others, other.key ≠ lease.key)
    (fits : others.length < cache.maxSize) : next.IsOrdered (used ++ [lease.key]) := by
  have isSplit : next.keys = others.map (·.key) ++ [lease.key] := by simp [keys, isNext]
  have areOld : ∀ key ∈ others.map (·.key), key ∈ used ∧ key ≠ lease.key := by
    intro key member
    obtain ⟨other, isOther, rfl⟩ := List.mem_map.mp member
    exact ⟨ordered.areUsed _ (key_mem_keys (within.subset isOther)), new other isOther⟩
  constructor
  · rw [isSplit, List.pairwise_append]
    refine ⟨?_, List.pairwise_singleton _ _, ?_⟩
    · refine (ordered.ordered.sublist (within.map _)).imp_of_mem ?_
      intro key other isKey _ isBefore
      exact lastBefore_append.mpr ⟨(areOld key isKey).2, .inl isBefore⟩
    · intro key isKey other isLast
      cases List.mem_singleton.mp isLast
      exact lastBefore_append.mpr ⟨(areOld key isKey).2, .inr ⟨(areOld key isKey).1, rfl⟩⟩
  · intro key member
    rw [isSplit] at member
    rcases List.mem_append.mp member with old | isLast
    · exact List.mem_append_left _ (areOld key old).1
    · exact List.mem_append_right _ isLast
  · rw [isSplit, sameSize, List.length_append, List.length_map]
    exact fits
  · exact sameSize ▸ ordered.room

end IsOrdered

theorem makeRoom_sublist (cache : Expiring τ ν) (key : String) :
    (cache.makeRoom key).Sublist cache.leases := by
  unfold makeRoom
  split
  · exact List.filter_sublist
  · split
    · exact List.drop_sublist 1 _
    · exact List.Sublist.refl _

/-- Without the entry of a key that is stored there are fewer entries. -/
theorem length_without_lt (member : lease ∈ cache.leases) :
    (cache.without lease.key).length < cache.leases.length :=
  List.length_filter_lt_length_iff_exists.mpr ⟨lease, member, by simp⟩

theorem IsOrdered.length_makeRoom_lt (ordered : cache.IsOrdered used) (key : String) :
    (cache.makeRoom key).length < cache.maxSize := by
  have length : cache.keys.length = cache.leases.length := List.length_map ..
  have fits := ordered.fits
  have room := ordered.room
  unfold makeRoom
  split
  · rename_i old found
    obtain ⟨member, rfl⟩ := find?_spec found
    have fewer := length_without_lt member
    omega
  · split
    · rw [List.length_drop]
      omega
    · omega

/-!
Reading and asking remove the entry of the key if it has expired, and nothing else.
-/

section Reading

variable [LE τ] {now : τ}

theorem IsOrdered.mem_without_expired (ordered : cache.IsOrdered used) {found : Lease τ ν}
    (isFound : cache.find? key = some found) (expired : found.expiresAt ≤ now) :
    lease ∈ cache.without key ↔
      lease ∈ cache.leases ∧ ¬(lease.expiresAt ≤ now ∧ key = lease.key) := by
  obtain ⟨isOld, rfl⟩ := find?_spec isFound
  simp only [without, List.mem_filter, decide_eq_true_eq, and_congr_right_iff]
  intro member
  constructor
  · rintro ne ⟨-, same⟩
    exact ne same.symm
  · intro stays same
    rw [ordered.eq_of_key_eq member isOld same] at stays
    exact stays ⟨expired, rfl⟩

theorem IsOrdered.mem_of_not_expired (ordered : cache.IsOrdered used)
    (live : ∀ found, cache.find? key = some found → ¬found.expiresAt ≤ now) :
    lease ∈ cache.leases ↔
      lease ∈ cache.leases ∧ ¬(lease.expiresAt ≤ now ∧ key = lease.key) := by
  refine ⟨fun member => ⟨member, ?_⟩, And.left⟩
  rintro ⟨expired, rfl⟩
  exact live lease (ordered.find?_eq_some_iff.mpr ⟨member, rfl⟩) expired

variable [DecidableLE τ]

theorem IsOrdered.mem_get (ordered : cache.IsOrdered used) :
    lease ∈ (cache.get now key).1.leases ↔
      lease ∈ cache.leases ∧ ¬(lease.expiresAt ≤ now ∧ key = lease.key) := by
  unfold Expiring.get
  cases found : cache.find? key with
  | none => exact ordered.mem_of_not_expired (by simp [found])
  | some old =>
      obtain ⟨isOld, rfl⟩ := find?_spec found
      by_cases expired : old.expiresAt ≤ now
      · simpa [Lease.isExpired, expired] using ordered.mem_without_expired found expired
      · -- The entry only moves to the end.
        rw [← ordered.mem_of_not_expired (by simpa [found] using expired)]
        simp only [Lease.isExpired, expired, decide_false, Bool.false_eq_true, if_false,
          without, List.mem_append, List.mem_filter, List.mem_singleton, decide_eq_true_eq]
        constructor
        · rintro (⟨member, -⟩ | rfl)
          · exact member
          · exact isOld
        · intro member
          by_cases same : lease.key = old.key
          · exact .inr (ordered.eq_of_key_eq member isOld same)
          · exact .inl ⟨member, same⟩

theorem IsOrdered.mem_has (ordered : cache.IsOrdered used) :
    lease ∈ (cache.has now key).1.leases ↔
      lease ∈ cache.leases ∧ ¬(lease.expiresAt ≤ now ∧ key = lease.key) := by
  unfold Expiring.has
  cases found : cache.find? key with
  | none => exact ordered.mem_of_not_expired (by simp [found])
  | some old =>
      by_cases expired : old.expiresAt ≤ now
      · simpa [Lease.isExpired, expired] using ordered.mem_without_expired found expired
      · simpa [Lease.isExpired, expired] using
          ordered.mem_of_not_expired (by simpa [found] using expired)

/-- A value is read when its entry is there and has not expired. -/
theorem IsOrdered.get_eq_some_iff (ordered : cache.IsOrdered used) {value : ν} :
    (cache.get now key).2 = some value ↔
      ∃ expiresAt, { key, value, expiresAt } ∈ cache.leases ∧ ¬expiresAt ≤ now := by
  unfold Expiring.get
  cases found : cache.find? key with
  | none =>
      have notFound := find?_eq_none_iff.mp found
      constructor
      · exact fun none => by cases none
      · rintro ⟨expiresAt, member, -⟩
        exact absurd (key_mem_keys member) notFound
  | some old =>
      obtain ⟨member, rfl⟩ := find?_spec found
      by_cases expired : old.expiresAt ≤ now
      · simp only [Lease.isExpired, expired, decide_true, if_true]
        constructor
        · exact fun none => by cases none
        · rintro ⟨expiresAt, isOld, live⟩
          have same : old.expiresAt = expiresAt :=
            congrArg Lease.expiresAt (ordered.eq_of_key_eq member isOld rfl)
          exact absurd (same ▸ expired) live
      · simp only [Lease.isExpired, expired, decide_false, Bool.false_eq_true, if_false,
          Option.some.injEq]
        constructor
        · rintro rfl
          exact ⟨old.expiresAt, member, expired⟩
        · rintro ⟨expiresAt, isOld, -⟩
          rw [ordered.eq_of_key_eq member isOld rfl]

end Reading

/-!
A run is told by its acts.  What each act does to an entry is said once, below, and the
history of a whole run follows from it.
-/

/-- What can be done with a cache. -/
inductive Act (τ ν : Type) where
  | get (key : String)
  | set (key : String) (value : ν) (lifetime : Option τ)
  | has (key : String)
  | delete (key : String)
  | clear
  | invalidate (isDoomed : String → Bool)
  | cleanup

namespace Act

/-- The act writes a value under the key. -/
def Sets (key : String) : Act τ ν → Prop
  | .set other _ _ => other = key
  | _ => False

/-- The act finds out whether the value of the key has expired. -/
def LooksAt (key : String) : Act τ ν → Prop
  | .get other | .has other => other = key
  | .cleanup => True
  | _ => False

end Act

/-- A key leaves because of the act, whether its value has expired or not.  A key is
evicted only when another one is set that is not stored, the cache is full, and the key
was used longest ago. -/
def Removes (cache : Expiring τ ν) (used : List String) (key : String) : Act τ ν → Prop
  | .set other _ _ =>
    other ∉ cache.keys ∧ cache.keys.length = cache.maxSize ∧ AreOldest used cache.keys 1 [key]
  | .delete other => other = key
  | .clear => True
  | .invalidate isDoomed => isDoomed key
  | .get _ | .has _ | .cleanup => False

section Runs

variable [LE τ] [DecidableLE τ] [Add τ]

/-- The cache after an act. -/
def perform (cache : Expiring τ ν) (now : τ) : Act τ ν → Expiring τ ν
  | .get key => (cache.get now key).1
  | .set key value lifetime => cache.set now key value lifetime
  | .has key => (cache.has now key).1
  | .delete key => (cache.delete key).1
  | .clear => cache.clear
  | .invalidate isDoomed => (cache.invalidate isDoomed).1
  | .cleanup => (cache.cleanup now).1

/-- The cache after acts, each at its time. -/
def run (cache : Expiring τ ν) (acts : List (τ × Act τ ν)) : Expiring τ ν :=
  acts.foldl (fun cache act => cache.perform act.1 act.2) cache

/-- The key that an act uses: one that is set, or one whose value is read. -/
def usedBy? (cache : Expiring τ ν) (now : τ) : Act τ ν → Option String
  | .get key => (cache.get now key).2.map fun _ => key
  | .set key _ _ => some key
  | _ => none

/-- The keys that acts use, one after the other. -/
def uses (cache : Expiring τ ν) : List (τ × Act τ ν) → List String
  | [] => []
  | act :: rest =>
    (cache.usedBy? act.1 act.2).toList ++ (cache.perform act.1 act.2).uses rest

/-- A value was set under a key and would count up to a time.  Since then the key was
not set again, and nothing removed it. -/
def Stands (start : Expiring τ ν) (acts : List (τ × Act τ ν)) (key : String) (value : ν)
    (expiresAt : τ) : Prop :=
  StandsSince
    (fun act => ∃ lifetime, act.2 = .set key value lifetime ∧
      expiresAt = act.1 + lifetime.getD start.lifetime)
    (fun past act => act.2.Sets key ∨ (start.run past).Removes (start.uses past) key act.2) acts

variable {start : Expiring τ ν} {now : τ} {act : Act τ ν} {acts : List (τ × Act τ ν)}

theorem run_append_singleton (cache : Expiring τ ν) (acts : List (τ × Act τ ν))
    (act : τ × Act τ ν) :
    cache.run (acts ++ [act]) = (cache.run acts).perform act.1 act.2 := by
  simp [run]

theorem uses_append_singleton (cache : Expiring τ ν) (acts : List (τ × Act τ ν))
    (act : τ × Act τ ν) :
    cache.uses (acts ++ [act]) =
      cache.uses acts ++ ((cache.run acts).usedBy? act.1 act.2).toList := by
  induction acts generalizing cache with
  | nil => simp [uses, run]
  | cons first rest ih =>
      rw [List.cons_append, uses, ih, uses, List.append_assoc]
      rfl

/-- The limit and the usual lifetime stay. -/
theorem perform_keeps (cache : Expiring τ ν) (now : τ) (act : Act τ ν) :
    (cache.perform now act).maxSize = cache.maxSize ∧
      (cache.perform now act).lifetime = cache.lifetime := by
  cases act with
  | get key =>
      simp only [perform, get]
      split
      · exact ⟨rfl, rfl⟩
      · split <;> exact ⟨rfl, rfl⟩
  | has key =>
      simp only [perform, has]
      split
      · exact ⟨rfl, rfl⟩
      · split <;> exact ⟨rfl, rfl⟩
  | set key value lifetime => exact ⟨rfl, rfl⟩
  | delete key => exact ⟨rfl, rfl⟩
  | clear => exact ⟨rfl, rfl⟩
  | invalidate isDoomed => exact ⟨rfl, rfl⟩
  | cleanup => exact ⟨rfl, rfl⟩

theorem run_keeps (cache : Expiring τ ν) (acts : List (τ × Act τ ν)) :
    (cache.run acts).maxSize = cache.maxSize ∧ (cache.run acts).lifetime = cache.lifetime := by
  induction acts using List.reverseRecOn with
  | nil => exact ⟨rfl, rfl⟩
  | append_singleton acts act ih =>
      rw [run_append_singleton]
      obtain ⟨sameSize, sameLifetime⟩ := perform_keeps (cache.run acts) act.1 act.2
      exact ⟨sameSize.trans ih.1, sameLifetime.trans ih.2⟩

/-- An act keeps the order: a key that it uses comes last. -/
theorem IsOrdered.perform (ordered : cache.IsOrdered used) (now : τ) (act : Act τ ν) :
    (cache.perform now act).IsOrdered (used ++ (cache.usedBy? now act).toList) := by
  cases act with
  | get key =>
      simp only [Expiring.perform, usedBy?, Expiring.get]
      split
      · rw [Option.map_none, Option.toList_none, List.append_nil]
        exact ordered.sublist rfl (List.Sublist.refl _)
      · rename_i lease found
        obtain ⟨member, rfl⟩ := find?_spec found
        split
        · rw [Option.map_none, Option.toList_none, List.append_nil]
          exact ordered.sublist rfl List.filter_sublist
        · refine ordered.push lease rfl rfl List.filter_sublist (by simp [without]) ?_
          have length : cache.keys.length = cache.leases.length := List.length_map ..
          exact Nat.lt_of_lt_of_le (length_without_lt member) (length ▸ ordered.fits)
  | set key value lifetime =>
      let lease : Lease τ ν := ⟨key, value, now + lifetime.getD cache.lifetime⟩
      exact ordered.push lease rfl rfl
        (makeRoom_sublist cache key) (fun other member => (mem_makeRoom member).2)
        (ordered.length_makeRoom_lt key)
  | has key =>
      simp only [Expiring.perform, usedBy?, Expiring.has, Option.toList_none, List.append_nil]
      split
      · exact ordered
      · split
        · exact ordered.sublist rfl List.filter_sublist
        · exact ordered
  | delete key =>
      simp only [usedBy?, Option.toList_none, List.append_nil]
      exact ordered.sublist rfl List.filter_sublist
  | clear =>
      simp only [usedBy?, Option.toList_none, List.append_nil]
      exact ordered.sublist rfl (List.nil_sublist _)
  | invalidate isDoomed =>
      simp only [usedBy?, Option.toList_none, List.append_nil]
      exact ordered.sublist rfl List.filter_sublist
  | cleanup =>
      simp only [usedBy?, Option.toList_none, List.append_nil]
      exact ordered.sublist rfl List.filter_sublist

theorem IsOrdered.run (ordered : start.IsOrdered []) (acts : List (τ × Act τ ν)) :
    (start.run acts).IsOrdered (start.uses acts) := by
  induction acts using List.reverseRecOn with
  | nil => exact ordered
  | append_singleton acts act ih =>
      rw [run_append_singleton, uses_append_singleton]
      exact ih.perform act.1 act.2

/-!
An entry is there after an act when the act wrote it, or when it was there and the act
neither wrote nor removed its key nor found it expired.
-/

theorem IsOrdered.mem_perform (ordered : cache.IsOrdered used) :
    lease ∈ (cache.perform now act).leases ↔
      (∃ lifetime, act = .set lease.key lease.value lifetime ∧
        lease.expiresAt = now + lifetime.getD cache.lifetime) ∨
      (lease ∈ cache.leases ∧ ¬act.Sets lease.key ∧ ¬cache.Removes used lease.key act ∧
        ¬(lease.expiresAt ≤ now ∧ act.LooksAt lease.key)) := by
  cases act with
  | get key => simpa [Expiring.perform, Act.Sets, Removes, Act.LooksAt] using ordered.mem_get
  | has key => simpa [Expiring.perform, Act.Sets, Removes, Act.LooksAt] using ordered.mem_has
  | set key value lifetime =>
      simp only [Expiring.perform, Expiring.set, List.mem_append, List.mem_singleton,
        ordered.mem_makeRoom_iff, Act.Sets, Removes, Act.LooksAt, and_false, not_false_eq_true,
        and_true, Act.set.injEq]
      rw [or_comm]
      refine or_congr ?_ (and_congr_right fun _ => and_congr_left fun _ => ?_)
      · constructor
        · rintro rfl
          exact ⟨lifetime, ⟨rfl, rfl, rfl⟩, rfl⟩
        · rintro ⟨_, ⟨rfl, rfl, rfl⟩, expires⟩
          rw [← expires]
      · exact not_congr eq_comm
  | delete key =>
      simp only [Expiring.perform, Expiring.delete, without, List.mem_filter, decide_eq_true_eq,
        Act.Sets, Removes, Act.LooksAt, reduceCtorEq, false_and, exists_false, and_false,
        not_false_eq_true, and_true, true_and, false_or]
      exact and_congr_right fun _ => not_congr eq_comm
  | clear => simp [Expiring.perform, clear, Act.Sets, Removes, Act.LooksAt]
  | invalidate isDoomed =>
      simp [Expiring.perform, invalidate, keepOnly, Act.Sets, Removes, Act.LooksAt]
  | cleanup =>
      simp [Expiring.perform, cleanup, keepOnly, Lease.isExpired, Act.Sets, Removes, Act.LooksAt]

/-- An entry that has not expired is there exactly when the history of the run says so.
What was removed because it had expired stays expired: no act is later than now. -/
theorem mem_run_iff [IsTrans τ (· ≤ ·)] (ordered : start.IsOrdered [])
    (late : ∀ act ∈ acts, act.1 ≤ now) (live : ¬lease.expiresAt ≤ now) (empty : start.leases = []) :
    lease ∈ (start.run acts).leases ↔
      start.Stands acts lease.key lease.value lease.expiresAt := by
  induction acts using List.reverseRecOn with
  | nil =>
      rw [run, List.foldl_nil, empty]
      exact iff_of_false List.not_mem_nil not_standsSince_nil
  | append_singleton acts act ih =>
      have notYet : ¬lease.expiresAt ≤ act.1 := by
        intro expired
        exact live (trans_of (· ≤ ·) expired (late act (by simp)))
      rw [run_append_singleton, (ordered.run acts).mem_perform, (run_keeps start acts).2,
        ih fun other member => late other (by simp [member]), Stands, Stands,
        standsSince_append, not_or]
      simp only [notYet, false_and, not_false_eq_true, and_true]

/-- A key leaves by an act exactly when the act removes it, or looks at it and finds its
value expired. -/
theorem IsOrdered.key_leaves_iff (ordered : cache.IsOrdered used)
    (member : lease ∈ cache.leases) :
    lease.key ∉ (cache.perform now act).keys ↔
      cache.Removes used lease.key act ∨ (lease.expiresAt ≤ now ∧ act.LooksAt lease.key) := by
  have stored := key_mem_keys member
  by_cases sets : act.Sets lease.key
  · -- A key that is set is there afterwards, and it was no new key.
    cases act with
    | set other value lifetime =>
        obtain rfl : other = lease.key := sets
        have isLast : lease.key ∈ (cache.set now lease.key value lifetime).keys := by
          simp [Expiring.set, keys]
        simp [Expiring.perform, isLast, Removes, Act.LooksAt, stored]
    | get other => cases sets
    | has other => cases sets
    | delete other => cases sets
    | clear => cases sets
    | invalidate isDoomed => cases sets
    | cleanup => cases sets
  · have stays : lease.key ∈ (cache.perform now act).keys ↔
        lease ∈ (cache.perform now act).leases := by
      constructor
      · intro isKey
        obtain ⟨other, isOther, same⟩ := List.mem_map.mp isKey
        rcases ordered.mem_perform.mp isOther with ⟨lifetime, rfl, -⟩ | ⟨old, -⟩
        · exact absurd same sets
        · rwa [ordered.eq_of_key_eq member old same.symm]
      · exact key_mem_keys
    rw [stays, ordered.mem_perform]
    have notWritten : ¬∃ lifetime, act = .set lease.key lease.value lifetime ∧
        lease.expiresAt = now + lifetime.getD cache.lifetime := by
      rintro ⟨lifetime, rfl, -⟩
      exact sets rfl
    simp only [notWritten, member, sets, not_false_eq_true, true_and, false_or]
    rw [not_and_or, not_not, not_not]

/-- A read gives what the history of the run says, whatever times are like, as long as no time is
later than one that it is not later than: values count until their time is not later than now. -/
theorem get_run_eq_some_iff [IsTrans τ (· ≤ ·)] {maxSize : Int} {lifetime : τ}
    (opened : empty? maxSize lifetime = .ok start) (late : ∀ act ∈ acts, act.1 ≤ now) {value : ν} :
    ((start.run acts).get now key).2 = some value ↔
      ∃ expiresAt, start.Stands acts key value expiresAt ∧ ¬expiresAt ≤ now := by
  obtain ⟨empty, -, isOrdered⟩ := empty?_spec opened
  rw [(isOrdered.run acts).get_eq_some_iff]
  constructor
  · rintro ⟨expiresAt, member, live⟩
    exact ⟨expiresAt, (mem_run_iff isOrdered late live empty).mp member, live⟩
  · rintro ⟨expiresAt, stands, live⟩
    have member : ⟨key, value, expiresAt⟩ ∈ (start.run acts).leases :=
      (mem_run_iff isOrdered late live empty).mpr stands
    exact ⟨expiresAt, member, live⟩

end Runs

/-- Times may be floats.  A lifetime that is no number gives an entry that never expires, though no
time comes before its end; all other entries count just before theirs. -/
theorem get_run_of_floats {start : Expiring Float ν} {now : Float} {acts : List (Float × Act Float ν)}
    {maxSize : Int} {lifetime : Float} (opened : empty? maxSize lifetime = .ok start)
    (late : ∀ act ∈ acts, act.1 ≤ now)
    (areNumbers : ∀ act ∈ acts, ∀ key value lifetime, act.2 = .set key value lifetime →
      (act.1 + lifetime.getD start.lifetime).isNaN = false) {key : String} {value : ν} :
    ((start.run acts).get now key).2 = some value ↔
      ∃ expiresAt, start.Stands acts key value expiresAt ∧ now < expiresAt := by
  rw [get_run_eq_some_iff opened late]
  apply exists_congr
  intro expiresAt
  apply and_congr_right
  rintro ⟨before, first, after, isSplit, ⟨given, isSet, isSum⟩, -⟩
  have member : first ∈ acts := by rw [isSplit]; simp
  have isNow : now.isNaN = false := (Decimal.isNumber_of_le (late first member)).2
  have isEnd : expiresAt.isNaN = false := by
    rw [isSum]
    exact areNumbers first member key value given isSet
  rw [Decimal.lt_iff_not_le isNow isEnd]

/-- An expiring cache does what the history of its run says, at every time that no act of
the run comes after.  It never holds more keys than it has room for.  A read gives the
value that was set last under the key, as long as that has not expired and was neither
deleted, cleared, invalidated nor evicted.  A stored key leaves for these reasons, or
because it is looked at after it has expired; and a new key evicts exactly the key that
was used longest ago, when the cache is full. -/
theorem run_tells_history [LinearOrder τ] [Add τ] {start : Expiring τ ν} {now : τ}
    {acts : List (τ × Act τ ν)} {maxSize : Int} {lifetime : τ}
    (opened : empty? maxSize lifetime = .ok start) (late : ∀ act ∈ acts, act.1 ≤ now) :
    let cache := start.run acts
    let used := start.uses acts
    (cache.keys.Nodup ∧ (cache.keys.length : Int) ≤ maxSize) ∧
    (∀ key value, (cache.get now key).2 = some value ↔
      ∃ expiresAt, start.Stands acts key value expiresAt ∧ now < expiresAt) ∧
    (∀ lease ∈ cache.leases, ∀ act, lease.key ∉ (cache.perform now act).keys ↔
      cache.Removes used lease.key act ∨
        (lease.expiresAt ≤ now ∧ act.LooksAt lease.key)) ∧
    (∀ key value lifetime, key ∉ cache.keys → (cache.keys.length : Int) = maxSize →
      ∃ oldest others, cache.keys = oldest :: others ∧
        AreOldest used cache.keys 1 [oldest] ∧
        (cache.perform now (.set key value lifetime)).keys = others ++ [key]) := by
  obtain ⟨-, room, isOrdered⟩ := empty?_spec opened
  have ordered := isOrdered.run acts
  have sameSize := (run_keeps start acts).1
  refine ⟨⟨ordered.distinct, ?_⟩, ?_, ?_, ?_⟩
  · have fits := ordered.fits
    omega
  · intro key value
    rw [get_run_eq_some_iff opened late]
    simp only [not_le]
  · intro lease member act
    exact ordered.key_leaves_iff member
  · intro key value lifetime new full
    obtain ⟨oldest, others, isSplit, isOldest, stay⟩ :=
      ordered.keys_makeRoom_of_full new (by omega)
    refine ⟨oldest, others, isSplit, isOldest, ?_⟩
    rw [← stay]
    simp [keys, Expiring.perform, Expiring.set]

/-- A cache with room for two values. -/
def sampleStart : Expiring Int String := { maxSize := 2, lifetime := 10 }

/-- A run in which a read saves the older value from being evicted. -/
def sampleActs : List (Int × Act Int String) :=
  [(0, .set "a" "x" none), (1, .set "b" "y" (some 30)), (2, .get "a"), (2, .set "c" "z" none)]

/-- The value that was read stands, and the evicted one does not. -/
theorem run_sampleActs :
    empty? 2 10 = .ok sampleStart ∧ (∀ act ∈ sampleActs, act.1 ≤ 5) ∧
    (∃ expiresAt, sampleStart.Stands sampleActs "a" "x" expiresAt ∧ 5 < expiresAt) ∧
    ¬∃ expiresAt, sampleStart.Stands sampleActs "b" "y" expiresAt ∧ 5 < expiresAt := by
  have late : ∀ act ∈ sampleActs, act.1 ≤ 5 := by decide
  have opened : empty? 2 10 = .ok sampleStart := rfl
  have told := run_tells_history opened late
  refine ⟨opened, late, (told.2.1 "a" "x").mp (by decide), fun stands => ?_⟩
  exact absurd ((told.2.1 "b" "y").mpr stands) (by decide)

end ComponentAtlas.Cache.Expiring
