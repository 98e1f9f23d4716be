/-
Module: ComponentAtlas.Disk.Basic
Purpose: The files of a machine as a tree.
Main exports:
  Access, Entry, Disk, Disk.at?, Disk.put, Disk.remove
-/
import ComponentAtlas.Path.Basic
import ComponentAtlas.Time.Timestamp

namespace ComponentAtlas

/-- What may be done with a directory. -/
structure Access where
  /-- Its names may be listed. -/
  isListable : Bool := true
  /-- Its names may be looked up, so that ways may lead through it. -/
  isSearchable : Bool := true
deriving Repr, DecidableEq, Inhabited

/-- Where only the listing is spoken of, names may be looked up. -/
instance : Coe Bool Access := ⟨fun isListable => { isListable }⟩

/-- What a name in a directory stands for.  The entries of a directory are in the
order in which the machine happens to list them. -/
inductive Entry where
  | file (content : List UInt8) (modified : Timestamp)
  /-- A file that may be neither read nor written. -/
  | sealed (modified : Timestamp)
  | link (target : Path)
  | directory (access : Access) (entries : List (List Char × Entry))
deriving Repr, Inhabited

/-- The files of a machine: the entries of its root. -/
structure Disk where
  root : Entry
deriving Repr, Inhabited

namespace Entry

def emptyDirectory : Entry := .directory true []

/-- The entries of a directory; anything else has none. -/
def entries : Entry → List (List Char × Entry)
  | .directory _ entries => entries
  | _ => []

/-- The entry is a directory itself, not a link to one. -/
def isDirectory : Entry → Bool
  | .directory _ _ => true
  | _ => false

/-- What may be done with a directory.  Nothing is kept from a directory that is made in
place of anything else. -/
def access : Entry → Access
  | .directory access _ => access
  | _ => {}

def isListable : Entry → Bool
  | .directory access _ => access.isListable
  | _ => false

def isSearchable : Entry → Bool
  | .directory access _ => access.isSearchable
  | _ => false

def child? (entry : Entry) (name : List Char) : Option Entry :=
  (entry.entries.find? fun found => found.1 = name).map (·.2)

/-- The entry at the end of a way of names, without following links. -/
def at? (entry : Entry) : List (List Char) → Option Entry
  | [] => some entry
  | name :: rest => (entry.child? name).bind fun below => below.at? rest

/-- Change what a name stands for; a new name comes last. -/
def changeChild (entries : List (List Char × Entry)) (name : List Char)
    (change : Option Entry → Option Entry) : List (List Char × Entry) :=
  match entries with
  | [] => ((change none).map fun below => (name, below)).toList
  | (other, below) :: rest =>
    if other = name then ((change (some below)).map fun next => (name, next)).toList ++ rest
    else (other, below) :: changeChild rest name change

/-- Change the entry at the end of a way of names, creating directories on the
way. -/
def change (entry : Entry) (update : Option Entry → Option Entry) (name : List Char) :
    List (List Char) → Entry
  | [] => .directory entry.access (changeChild entry.entries name update)
  | next :: rest =>
    .directory entry.access
      (changeChild entry.entries name fun below =>
        some ((below.getD emptyDirectory).change update next rest))

end Entry

namespace Disk

/-- The entry at the end of a way of names from the root, without following
links. -/
def at? (disk : Disk) (names : List (List Char)) : Option Entry := disk.root.at? names

/-- Change the entry at the end of a way of names from the root. -/
def change (disk : Disk) (update : Option Entry → Option Entry) :
    List (List Char) → Disk
  | [] => disk
  | name :: rest => { root := disk.root.change update name rest }

/-- Put an entry at the end of a way of names from the root. -/
def put (disk : Disk) (names : List (List Char)) (entry : Entry) : Disk :=
  disk.change (fun _ => some entry) names

/-- Remove the entry at the end of a way of names from the root. -/
def remove (disk : Disk) (names : List (List Char)) : Disk := disk.change (fun _ => none) names

end Disk

end ComponentAtlas
