/-
Module: ComponentAtlas.Disk.Change
Purpose: Writing and removing files.
Main exports:
  Disk.makeDirectories, Disk.store, Disk.openLog, Disk.discard
-/
import ComponentAtlas.Disk.Lookup

namespace ComponentAtlas.Disk

/-- The names at which the last name of a path stands or would be made, in the directory
above it.  Anything else than a directory is in the way. -/
def placeBelow (disk : Disk) (path : Path) : Except DiskProblem (List (List Char)) := do
  if path.isLong then .error .nameTooLong
  else
    let above ← disk.locate path.parent
    match disk.at? above with
    | none => .error .missing
    | some entry =>
      if !entry.isDirectory then .error .notDirectory
      else if !entry.isSearchable then .error .denied
      else if Path.isLongName path.name then .error .nameTooLong
      else .ok (above ++ [path.name])

/-- Make one directory inside a directory that exists. -/
def makeDirectory (disk : Disk) (path : Path) : Except DiskProblem Disk := do
  let names ← disk.placeBelow path
  match disk.at? names with
  | some _ => .error .fileExists
  | none => .ok (disk.put names Entry.emptyDirectory)

/-- Refuse what is in the way of a directory, unless it leads to one. -/
def acceptDirectory (disk : Disk) (path : Path) : Except DiskProblem Disk → Except Fault Disk
  | .ok next => .ok next
  | .error problem => do
    if ← disk.isDirectory path then .ok disk else .error (.disk problem path.text)

/-- Make the directory with the given names, in reverse order, and those above it
that are missing. -/
def makeDirectoriesFrom (disk : Disk) (slashes : Nat) : List (List Char) → Except Fault Disk
  | [] => .ok disk
  | name :: above =>
    let path : Path := { slashes, parts := (name :: above).reverse }
    match disk.makeDirectory path with
    | .error .missing => do
      let next ← makeDirectoriesFrom disk slashes above
      next.acceptDirectory path (next.makeDirectory path)
    | answer => disk.acceptDirectory path answer

/-- Make the directory at a path and those above it that are missing. -/
def makeDirectories (disk : Disk) (path : Path) : Except Fault Disk :=
  disk.makeDirectoriesFrom path.slashes path.parts.reverse

/-- The names from the root at which a file at the end of a way stands or would be made:
the way is followed as by `locateFrom`, but its last name may be missing. -/
def placeFrom (disk : Disk) (links : Nat) (here : List (List Char)) (way : List (List Char)) :
    Except DiskProblem (List (List Char)) :=
  match way with
  | [] => .ok here.reverse
  | name :: rest =>
    match disk.at? here.reverse with
    | none => .error .missing
    | some entry =>
      if !entry.isDirectory then .error .notDirectory
      else if !entry.isSearchable then .error .denied
      else if name = Path.above then placeFrom disk links here.tail rest
      else if Path.isLongName name then .error .nameTooLong
      else
        match entry.child? name with
        | none => if rest.isEmpty then .ok (name :: here).reverse else .error .missing
        | some (.link target) =>
          match links with
          | 0 => .error .linkLoop
          | fewer + 1 =>
            placeFrom disk fewer (if target.isAbsolute then [] else here) (target.parts ++ rest)
        | some _ => placeFrom disk links (name :: here) rest
termination_by (links, way.length)

/-- The names at which a file for a path stands or would be made; links are
followed, also one that leads to nothing yet. -/
def filePlace (disk : Disk) (path : Path) : Except DiskProblem (List (List Char)) := do
  if path.isLong then .error .nameTooLong
  else
    let names ← disk.placeFrom maxLinks [] path.parts
    match disk.at? names with
    | some (.directory _ _) => .error .isDirectory
    | some (.sealed _) => .error .denied
    | _ => .ok names

/-- Write a file, in place of what it held before. -/
def store (disk : Disk) (path : Path) (content : List UInt8) (modified : Timestamp) :
    Except Fault Disk :=
  if hasNull path then .error .nullInPath
  else
    faultAt path <| do
      return disk.put (← disk.filePlace path) (.file content modified)

/-- Open a file that lines are added to; a missing one is made. -/
def openLog (disk : Disk) (path : Path) (now : Timestamp) : Except Fault Disk :=
  if hasNull path then .error .nullInPath
  else
    faultAt path <| do
      let names ← disk.filePlace path
      match disk.at? names with
      | some _ => .ok disk
      | none => .ok (disk.put names (.file [] now))

def discard (disk : Disk) (path : Path) : Except Fault Disk :=
  faultAt path <| do
    let names ← disk.placeBelow path
    match disk.at? names with
    | none => .error .missing
    | some (.directory _ _) => .error .isDirectory
    | some _ => .ok (disk.remove names)

end ComponentAtlas.Disk
