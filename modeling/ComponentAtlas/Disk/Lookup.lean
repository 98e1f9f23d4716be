/-
Module: ComponentAtlas.Disk.Lookup
Purpose: What a path leads to when links are followed.
Main exports:
  Disk.locate, Disk.entryAt, Presence, Disk.presence, Disk.isDirectory, Disk.contentAt,
  Disk.modified, Disk.withoutLinks, Disk.realPath
-/
import ComponentAtlas.Disk.Basic
import ComponentAtlas.Text.Utf8

namespace ComponentAtlas

/-- The most links that are followed on one path. -/
def maxLinks : Nat := 40

/-- The most bytes of a name. -/
def maxNameBytes : Nat := 255

/-- The most bytes of a path that the machine is asked about. -/
def maxPathBytes : Nat := 4095

/-- The name is longer than any that a directory can hold. -/
def Path.isLongName (name : List Char) : Bool :=
  maxNameBytes < (Text.Utf8.encode name).length

/-- The path is longer than any that the machine takes. -/
def Path.isLong (path : Path) : Bool := maxPathBytes < (Text.Utf8.encode path.chars).length

namespace Disk

/-- The names from the root that a way leads to: `here` are the names up to the
place, in reverse order.  Every name on the way, two dots too, needs a directory
to stand in, and this directory has to let names be looked up. -/
def locateFrom (disk : Disk) (links : Nat) (here : List (List Char)) (way : List (List Char)) :
    Except DiskProblem (List (List Char)) :=
  match way with
  | [] => .ok here.reverse
  | name :: rest =>
    match disk.at? here.reverse with
    | none => .error .missing
    | some entry =>
      if !entry.isDirectory then .error .notDirectory
      else if !entry.isSearchable then .error .denied
      else if name = Path.above then locateFrom disk links here.tail rest
      else if Path.isLongName name then .error .nameTooLong
      else
        match entry.child? name with
        | none => .error .missing
        | some (.link target) =>
          match links with
          | 0 => .error .linkLoop
          | fewer + 1 =>
            locateFrom disk fewer (if target.isAbsolute then [] else here) (target.parts ++ rest)
        | some _ => locateFrom disk links (name :: here) rest
termination_by (links, way.length)

/-- The names from the root that an absolute path leads to, without links. -/
def locate (disk : Disk) (path : Path) : Except DiskProblem (List (List Char)) :=
  if path.isLong then .error .nameTooLong else locateFrom disk maxLinks [] path.parts

/-- The entry at the end of a way of names from the root, if there is one. -/
def standing (disk : Disk) (names : List (List Char)) : Except DiskProblem Entry :=
  match disk.at? names with
  | some entry => .ok entry
  | none => .error .missing

/-- The entry that an absolute path leads to. -/
def entryAt (disk : Disk) (path : Path) : Except DiskProblem Entry := do
  disk.standing (← locate disk path)

/-- What there is at a path, as far as the validation of settings asks. -/
inductive Presence where
  | nothing
  | directory
  | other
deriving Repr, DecidableEq

/-- What is made of the answer for a path: it tells what there is, or that there is
nothing.  Where it tells neither, the question fails. -/
def presenceOf (path : Path) : Except DiskProblem Entry → Except Fault Presence
  | .ok entry => .ok (if entry.isDirectory then .directory else .other)
  | .error problem =>
    if problem.isAbsence then .ok .nothing else .error (.disk problem path.text)

/-- A path that contains the null character leads nowhere. -/
def hasNull (path : Path) : Bool := path.parts.any fun name => name.contains (Char.ofNat 0)

/-- What there is at an absolute path, if the machine tells. -/
def presence (disk : Disk) (path : Path) : Except Fault Presence :=
  if hasNull path then .ok .nothing else presenceOf path (disk.entryAt path)

def isDirectory (disk : Disk) (path : Path) : Except Fault Bool :=
  (disk.presence path).map fun presence => presence = .directory

def isPresent (disk : Disk) (path : Path) : Except Fault Bool :=
  (disk.presence path).map fun presence => presence ≠ .nothing

/-- The path leads to a directory.  Where the machine does not tell, it counts as one that
does not. -/
def leadsToDirectory (disk : Disk) (path : Path) : Bool :=
  match disk.isDirectory path with
  | .ok answer => answer
  | .error _ => false

def faultAt {α : Type} (path : Path) (answer : Except DiskProblem α) : Except Fault α :=
  answer.mapError fun problem => .disk problem path.text

/-- The content of a file and the time of its last change. -/
def contentAt (disk : Disk) (path : Path) : Except Fault (List UInt8 × Timestamp) :=
  if hasNull path then .error .nullInPath
  else
    faultAt path <| do
      match ← disk.entryAt path with
      | .file content modified => .ok (content, modified)
      | .sealed _ => .error .denied
      | .directory _ _ => .error .isDirectory
      | .link _ => .error .linkLoop

/-- The time of a directory, which no answer depends on. -/
def directoryTime : Timestamp := { wall := 0, offset := some 0 }

/-- The time of the last change of what is at a path. -/
def changedAt (disk : Disk) (path : Path) : Except Fault Timestamp :=
  faultAt path <| do
    match ← disk.entryAt path with
    | .file _ modified => .ok modified
    | .sealed modified => .ok modified
    | _ => .ok directoryTime

/-- The time of a file as a date.  A year is counted from 1900 in 32 bits, and only some of
the years that fit have dates. -/
def dated (time : Timestamp) : Except Fault Timestamp :=
  if time.isDate then .ok time
  else if -2147483648 ≤ time.year - 1900 && time.year - 1900 < 2147483648 then
    .error (.yearOutOfRange time.year)
  else .error .timeTooLarge

/-- The date of the last change of what is at a path. -/
def modified (disk : Disk) (path : Path) : Except Fault Timestamp := do
  dated (← disk.changedAt path)

/-- The number of links on the disk below some entries. -/
def countLinks : List (List Char × Entry) → Nat
  | [] => 0
  | (_, .link _) :: rest => countLinks rest + 1
  | (_, .directory _ entries) :: rest => countLinks entries + countLinks rest
  | (_, .file _ _) :: rest => countLinks rest
  | (_, .sealed _) :: rest => countLinks rest

/-- Names may be looked up one below the other, down from an entry. -/
def isOpen (entry : Entry) : List (List Char) → Bool
  | [] => true
  | name :: rest =>
    entry.isSearchable && !Path.isLongName name &&
      (entry.child? name).all fun below => isOpen below rest

/-- The target of the link at a place, as far as the machine lets it be looked up: the
names of the place are in reverse order. -/
def linkAt? (disk : Disk) (place : List (List Char)) : Option Path :=
  match disk.at? place.reverse with
  | some (.link target) => if isOpen disk.root place.reverse then some target else none
  | _ => none

/-- The path of a way with its links resolved, as far as that is possible: `here`
as in `locateFrom`, `active` the links that are being resolved.  The flag tells
that no link led back to itself; otherwise the rest of the way is kept as it
stands. -/
def resolveFrom (disk : Disk) (depth : Nat) (active : List (List (List Char)))
    (here : List (List Char)) (way : List (List Char)) : List (List Char) × Bool :=
  match way with
  | [] => (here, true)
  | name :: rest =>
    if name = Path.above then resolveFrom disk depth active here.tail rest
    else
      let place := name :: here
      match disk.linkAt? place with
      | some target =>
        match depth with
        | 0 => (rest.reverse ++ place, false)
        | fewer + 1 =>
          if place ∈ active then (rest.reverse ++ place, false)
          else
            match resolveFrom disk fewer (place :: active)
                (if target.isAbsolute then [] else here) target.parts with
            | (there, true) => resolveFrom disk (fewer + 1) active there rest
            | (there, false) => (rest.reverse ++ there, false)
      | none => resolveFrom disk depth active place rest
termination_by (depth, way.length)

/-- The path without links and without two dots, as far as that is possible;
missing names stay as they stand. -/
def withoutLinks (disk : Disk) (path : Path) : Path :=
  let (here, _) := resolveFrom disk (countLinks disk.root.entries + 1) [] [] path.parts
  Path.normal { slashes := 1, parts := here.reverse }

/-- The path without links and without two dots.  A path whose links never end is a
fault. -/
def realPath (disk : Disk) (path : Path) : Except Fault Path :=
  if hasNull path then .error .nullAmongLinks
  else
    let real := disk.withoutLinks path
    match disk.locate real with
    | .error .linkLoop => .error (.linkLoop real.text)
    | _ => .ok real

end Disk

end ComponentAtlas
