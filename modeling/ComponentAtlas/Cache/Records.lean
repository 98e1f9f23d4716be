/-
Module: ComponentAtlas.Cache.Records
Purpose: A cache of components by file, which forgets a tenth of its entries when
  it overflows.
Main exports:
  Slot, Records, Mode, Records.put, Records.get, Records.invalidate,
  Records.isFresh?, Records.stats
-/
import ComponentAtlas.Cache.Stats
import ComponentAtlas.Component.Basic
import ComponentAtlas.Fault
import ComponentAtlas.Journal

namespace ComponentAtlas.Cache

/-!
The cache is kept in the order in which files were first put into it.  When it
overflows it forgets the entries that were used longest ago, a tenth of them but
at least one.  While caching is switched off, nothing is read or changed.  The
type of times is a parameter: the program uses seconds as floats.
-/

/-- A cached component. -/
structure Slot (τ : Type) where
  component : Component
  /-- Number of times it was put or read. -/
  uses : Nat
  /-- Time of the last use. -/
  lastUse : τ
  /-- Number of the last use among all uses of the cache. -/
  tick : Nat
deriving Repr

/-- Cached components, with the counts of reads that found one and that found
none. -/
structure Records (τ : Type) where
  slots : List (Slot τ) := []
  /-- A capacity that takes precedence over the settings. -/
  capacity : Option Int := none
  nextTick : Nat := 0
  hits : Nat := 0
  misses : Nat := 0
deriving Repr

/-- What the settings say about caching. -/
structure Mode where
  enabled : Bool
  maxSize : Int
deriving Repr, DecidableEq

def Slot.path {τ : Type} (slot : Slot τ) : String := slot.component.filePath

namespace Records

variable {τ : Type}

/-- The number of entries that may be kept. -/
def limit (cache : Records τ) (mode : Mode) : Int := cache.capacity.getD mode.maxSize

def find? (cache : Records τ) (path : String) : Option (Slot τ) :=
  cache.slots.find? fun slot => slot.path = path

/-- Put a slot in the place of the one of its file, or at the end. -/
def place (slot : Slot τ) : List (Slot τ) → List (Slot τ)
  | [] => [slot]
  | other :: rest =>
    if other.path = slot.path then slot :: rest else other :: place slot rest

/-- `left` was used no later than `right`. -/
def usedBefore [LT τ] [DecidableLT τ] (left right : Slot τ) : Bool :=
  left.lastUse < right.lastUse ||
    (!decide (right.lastUse < left.lastUse) && left.tick ≤ right.tick)

/-- The number of entries that an overflow forgets. -/
def evictionCount (size : Nat) : Nat := max 1 (size / 10)

/-- The files whose entries were used longest ago. -/
def oldest [LT τ] [DecidableLT τ] (slots : List (Slot τ)) : List String :=
  ((slots.mergeSort usedBefore).take (evictionCount slots.length)).map Slot.path

/-- Forget the oldest entries when there are more than the limit, and log how
many. -/
def evict [LT τ] [DecidableLT τ] (cache : Records τ) (mode : Mode) :
    Records τ × List Journal.Record :=
  if (cache.slots.length : Int) ≤ cache.limit mode then (cache, [])
  else
    let doomed := oldest cache.slots
    ({ cache with slots := cache.slots.filter fun slot => slot.path ∉ doomed },
      [{ level := .debug, logger := "cache"
         message := "Evicted " ++ toString doomed.length ++ " cache entries" }])

/-- The cache after a component was put, before anything is forgotten. -/
def insert (cache : Records τ) (now : τ) (component : Component) : Records τ :=
  { cache with
    slots := place { component, uses := 1, lastUse := now, tick := cache.nextTick } cache.slots
    nextTick := cache.nextTick + 1 }

def put [LT τ] [DecidableLT τ] (cache : Records τ) (mode : Mode) (now : τ)
    (component : Component) : Records τ × List Journal.Record :=
  if mode.enabled then (cache.insert now component).evict mode else (cache, [])

def use (cache : Records τ) (now : τ) (slot : Slot τ) : Slot τ :=
  { slot with uses := slot.uses + 1, lastUse := now, tick := cache.nextTick }

def get (cache : Records τ) (mode : Mode) (now : τ) (path : String) :
    Records τ × Option Component :=
  if mode.enabled then
    match cache.find? path with
    | none => ({ cache with misses := cache.misses + 1 }, none)
    | some slot =>
      ({ cache with
         slots := place (cache.use now slot) cache.slots
         nextTick := cache.nextTick + 1
         hits := cache.hits + 1 }, some slot.component)
  else (cache, none)

/-- The slots that can be seen: none while caching is switched off. -/
def visible (cache : Records τ) (mode : Mode) : List (Slot τ) :=
  if mode.enabled then cache.slots else []

def components (cache : Records τ) (mode : Mode) : List Component :=
  (cache.visible mode).map (·.component)

def paths (cache : Records τ) (mode : Mode) : List String := (cache.visible mode).map Slot.path

def size (cache : Records τ) (mode : Mode) : Nat := (cache.visible mode).length

def invalidate (cache : Records τ) (mode : Mode) (path : String) : Records τ :=
  if mode.enabled then { cache with slots := cache.slots.filter fun slot => slot.path ≠ path }
  else cache

def invalidateAll (cache : Records τ) (mode : Mode) : Records τ :=
  if mode.enabled then { cache with slots := [] } else cache

/-- The cached component of a file is at least as new as a time; `none` when the
two times cannot be compared. -/
def isFresh? (cache : Records τ) (mode : Mode) (path : String) (modified : Timestamp) :
    Option Bool :=
  if mode.enabled then
    match cache.find? path with
    | some slot => slot.component.lastModified.atLeast? modified
    | none => some false
  else some false

def stats (cache : Records τ) (mode : Mode) : Data :=
  let size : Nat := cache.size mode
  let uses : Nat := (cache.visible mode).foldl (fun count slot => count + slot.uses) 0
  .record [("size", .int size), ("max_size", .int (cache.limit mode)),
    ("total_accesses", .int uses), ("mean_access_count", .float (shareOf uses size)),
    ("hits", .int cache.hits), ("misses", .int cache.misses),
    ("hit_rate", .float (shareOf cache.hits (cache.hits + cache.misses)))]

end Records

end ComponentAtlas.Cache
