/-
Module: ComponentAtlas.Disk.Walk
Purpose: The files below a directory, in the order of their names.
Main exports:
  Sighting, Disk.walk
-/
import ComponentAtlas.Disk.Lookup

namespace ComponentAtlas

/-- What is met on a walk. -/
inductive Sighting where
  /-- A file, or a link that leads to no directory. -/
  | file (path : Path)
  /-- A directory whose names cannot be listed. -/
  | refused (path : Path) (problem : DiskProblem)
deriving Repr, DecidableEq

namespace Disk

/-- The first name does not come after the second one. -/
def isOrdered (first second : List Char) : Bool :=
  !List.lex second first fun c d => decide (c < d)

def byName {α : Type} (items : List (List Char × α)) : List (List Char × α) :=
  items.mergeSort fun a b => isOrdered a.1 b.1

/-- An entry of the directory at a path counts as a directory: it is one itself, or its
name leads to one. -/
def isFolder (disk : Disk) (path : Path) (entry : List Char × Entry) : Bool :=
  entry.2.isDirectory || disk.leadsToDirectory (path.child entry.1)

/-- The files of a directory that are wanted: entries that do not count as directories. -/
def filesIn (disk : Disk) (wanted : Path → Bool) (path : Path)
    (entries : List (List Char × Entry)) : List Sighting :=
  (byName (entries.filter fun entry =>
    !disk.isFolder path entry && wanted (path.child entry.1))).map
      fun entry => .file (path.child entry.1)

/-- Why the names of the directory at a path cannot be listed. -/
def listingProblem? (disk : Disk) (path : Path) : Option DiskProblem :=
  match disk.entryAt path with
  | .error problem => some problem
  | .ok entry =>
    if !entry.isDirectory then some .notDirectory
    else if !entry.isListable then some .denied
    else none

mutual

/-- What is met in a directory and below it: first its files, then what is met in
its directories, both in the order of names.  Only wanted files are met and only
wanted directories are entered; links to directories are not entered. -/
def walkEntry (disk : Disk) (wanted : Path → Bool) (path : Path) : Entry → List Sighting
  | .directory _ entries =>
    match disk.listingProblem? path with
    | some problem => [.refused path problem]
    | none =>
      filesIn disk wanted path entries ++
        (byName (walkBelow disk wanted path entries)).flatMap (·.2)
  | _ => []

/-- What is met in each of the directories among some entries. -/
def walkBelow (disk : Disk) (wanted : Path → Bool) (path : Path) :
    List (List Char × Entry) → List (List Char × List Sighting)
  | [] => []
  | (name, entry) :: rest =>
    if entry.isDirectory && wanted (path.child name) then
      (name, walkEntry disk wanted (path.child name) entry) :: walkBelow disk wanted path rest
    else walkBelow disk wanted path rest

end

def walk (disk : Disk) (wanted : Path → Bool) (path : Path) : List Sighting :=
  match disk.entryAt path with
  | .ok entry => walkEntry disk wanted path entry
  | .error problem => [.refused path problem]

end Disk

end ComponentAtlas
