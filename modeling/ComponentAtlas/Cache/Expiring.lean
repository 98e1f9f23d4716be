/-
Module: ComponentAtlas.Cache.Expiring
Purpose: A cache of limited size whose entries expire.
Main exports:
  Lease, Expiring, Expiring.empty?, Expiring.get, Expiring.set, Expiring.has,
  Expiring.delete, Expiring.cleanup, Expiring.stats
-/
import ComponentAtlas.Cache.Stats
import ComponentAtlas.Data.Basic
import ComponentAtlas.Fault

namespace ComponentAtlas.Cache

/-!
Entries are kept in the order of their last use, the oldest first.  An entry that
has expired stays until it is asked for or cleaned up, and counts as long as it
is there.  When a new key comes to a full cache, the oldest entry leaves.
-/

/-- A value with the time from which on it does not count. -/
structure Lease (τ : Type) (ν : Type) where
  key : String
  value : ν
  expiresAt : τ
deriving Repr, DecidableEq

/-- Entries with their limit, their usual lifetime, and the counts of reads that
found one and that found none. -/
structure Expiring (τ : Type) (ν : Type) where
  maxSize : Nat
  lifetime : τ
  leases : List (Lease τ ν) := []
  hits : Nat := 0
  misses : Nat := 0
deriving Repr

namespace Expiring

variable {τ : Type} {ν : Type}

/-- A cache without entries; it must have room for one. -/
def empty? (maxSize : Int) (lifetime : τ) : Except Fault (Expiring τ ν) :=
  if maxSize ≤ 0 then .error .noCapacity else .ok { maxSize := maxSize.toNat, lifetime }

def find? (cache : Expiring τ ν) (key : String) : Option (Lease τ ν) :=
  cache.leases.find? fun lease => lease.key = key

def without (cache : Expiring τ ν) (key : String) : List (Lease τ ν) :=
  cache.leases.filter fun lease => lease.key ≠ key

/-- The keys, the oldest first. -/
def keys (cache : Expiring τ ν) : List String := cache.leases.map (·.key)

/-- An entry that does not count any more. -/
def Lease.isExpired [LE τ] [DecidableLE τ] (now : τ) (lease : Lease τ ν) : Bool :=
  lease.expiresAt ≤ now

/-- Read the value of a key.  A value that counts becomes the newest one; one that
has expired is removed. -/
def get [LE τ] [DecidableLE τ] (cache : Expiring τ ν) (now : τ) (key : String) :
    Expiring τ ν × Option ν :=
  match cache.find? key with
  | none => ({ cache with misses := cache.misses + 1 }, none)
  | some lease =>
    if Lease.isExpired now lease then
      ({ cache with leases := cache.without key, misses := cache.misses + 1 }, none)
    else
      ({ cache with leases := cache.without key ++ [lease], hits := cache.hits + 1 },
        some lease.value)

/-- The entries among which a key gets its new one: without its old one, or without
the oldest one when the key is new and the cache full. -/
def makeRoom (cache : Expiring τ ν) (key : String) : List (Lease τ ν) :=
  match cache.find? key with
  | some _ => cache.without key
  | none => if cache.maxSize ≤ cache.leases.length then cache.leases.drop 1 else cache.leases

/-- Write the value of a key, which then is the newest one. -/
def set [Add τ] (cache : Expiring τ ν) (now : τ) (key : String) (value : ν)
    (lifetime : Option τ) : Expiring τ ν :=
  let lease : Lease τ ν :=
    { key, value, expiresAt := now + lifetime.getD cache.lifetime }
  { cache with leases := cache.makeRoom key ++ [lease] }

/-- The key has a value that counts; one that has expired is removed. -/
def has [LE τ] [DecidableLE τ] (cache : Expiring τ ν) (now : τ) (key : String) :
    Expiring τ ν × Bool :=
  match cache.find? key with
  | none => (cache, false)
  | some lease =>
    if Lease.isExpired now lease then ({ cache with leases := cache.without key }, false)
    else (cache, true)

/-- Remove a key; the answer tells whether it was there. -/
def delete (cache : Expiring τ ν) (key : String) : Expiring τ ν × Bool :=
  ({ cache with leases := cache.without key }, (cache.find? key).isSome)

/-- Remove all entries and start to count anew. -/
def clear (cache : Expiring τ ν) : Expiring τ ν :=
  { cache with leases := [], hits := 0, misses := 0 }

/-- Keep the entries that pass a test, and count those that do not. -/
def keepOnly (cache : Expiring τ ν) (test : Lease τ ν → Bool) : Expiring τ ν × Nat :=
  ({ cache with leases := cache.leases.filter test }, cache.leases.countP (!test ·))

def invalidate (cache : Expiring τ ν) (isDoomed : String → Bool) : Expiring τ ν × Nat :=
  cache.keepOnly fun lease => !isDoomed lease.key

def cleanup [LE τ] [DecidableLE τ] (cache : Expiring τ ν) (now : τ) : Expiring τ ν × Nat :=
  cache.keepOnly fun lease => !Lease.isExpired now lease

def stats (cache : Expiring τ ν) : Data :=
  .record [("size", .int cache.leases.length), ("max_size", .int cache.maxSize),
    ("hits", .int cache.hits), ("misses", .int cache.misses),
    ("hit_rate", .float (shareOf cache.hits (cache.hits + cache.misses)))]

end Expiring

end ComponentAtlas.Cache
