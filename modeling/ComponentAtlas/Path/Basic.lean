/-
Module: ComponentAtlas.Path.Basic
Purpose: Paths as lists of names, and the operations on them that need no file
  system.
Main exports:
  Path, Path.ofChars, Path.chars, Path.join, Path.normal, Path.relative,
  Path.isWithin, Users, Path.expandUser
-/
import ComponentAtlas.Fault
import ComponentAtlas.Text.Blank

namespace ComponentAtlas

/-!
A path is read once into its names.  Empty names and single dots carry no
meaning and are left out; two dots stay, because what they mean may depend on
links.
-/

/-- A path. -/
structure Path where
  /-- Slashes in front: none for a relative path.  Exactly two are kept apart from
  one; three or more count as one. -/
  slashes : Nat
  parts : List (List Char)
deriving Repr, DecidableEq, Inhabited

namespace Path

def above : List Char := ['.', '.']

def names (text : List Char) : List (List Char) :=
  (Text.splitWhere (· = '/') text).filter fun name => !name.isEmpty && name ≠ ['.']

/-- The number of slashes in front that matters. -/
def leadingSlashes (text : List Char) : Nat :=
  match (text.takeWhile (· = '/')).length with
  | 0 => 0
  | 2 => 2
  | _ => 1

def ofChars (text : List Char) : Path :=
  { slashes := leadingSlashes text, parts := names text }

def ofText (text : String) : Path := ofChars text.toList

/-- The path as characters; the empty relative path is a dot. -/
def chars (path : Path) : List Char :=
  if path.slashes = 0 && path.parts.isEmpty then ['.']
  else List.replicate path.slashes '/' ++ Text.joinWith ['/'] path.parts

def text (path : Path) : String := String.ofList path.chars

def isAbsolute (path : Path) : Bool := path.slashes ≠ 0

def child (path : Path) (name : List Char) : Path :=
  { path with parts := path.parts ++ [name] }

/-- A path seen from a directory; an absolute one does not depend on it. -/
def join (base path : Path) : Path :=
  if path.isAbsolute then path else { base with parts := base.parts ++ path.parts }

def name (path : Path) : List Char := path.parts.getLast?.getD []

def parent (path : Path) : Path := { path with parts := path.parts.dropLast }

/-- A name cut at its last dot.  A dot at either end does not count. -/
def cutName (name : List Char) : List Char × List Char :=
  let ending := name.reverse.takeWhile (· ≠ '.')
  let start := name.take (name.length - ending.length - 1)
  if ending.isEmpty || start.isEmpty then (name, []) else (start, '.' :: ending.reverse)

def stem (path : Path) : List Char := (cutName path.name).1

def extension (path : Path) : List Char := (cutName path.name).2

/-- Add a name to names in reverse order; two dots take the name before away,
except where nothing is left to take. -/
def climb (slashes : Nat) (reversed : List (List Char)) (name : List Char) :
    List (List Char) :=
  if name = above then
    match reversed with
    | [] => if slashes = 0 then [above] else []
    | last :: rest => if last = above then above :: reversed else rest
  else name :: reversed

/-- The path without two dots that follow a name. -/
def normal (path : Path) : Path :=
  { path with parts := (path.parts.foldl (climb path.slashes) []).reverse }

/-- Both lists without the names that they share in front. -/
def dropShared : List (List Char) → List (List Char) → List (List Char) × List (List Char)
  | a :: left, b :: right => if a = b then dropShared left right else (a :: left, b :: right)
  | left, right => (left, right)

/-- The way from one absolute path to another. -/
def relative (path start : Path) : List Char :=
  let (below, leftover) := dropShared path.parts start.parts
  let way := leftover.map (fun _ => above) ++ below
  if way.isEmpty then ['.'] else Text.joinWith ['/'] way

/-- The path is the directory or lies below it. -/
def isWithin (path directory : Path) : Bool :=
  path.slashes = directory.slashes && directory.parts.isPrefixOf path.parts

end Path

/-- The home directories of users. -/
structure Users where
  /-- The home of the user who runs the program. -/
  home : List Char
  /-- The homes of users by name. -/
  others : List (List Char × List Char)
deriving Repr

/-- The home directory that a first name such as `~` or `~user` stands for. -/
def Users.homeOf? (users : Users) (user : List Char) : Option (List Char) :=
  if user.isEmpty then some users.home
  else (users.others.find? fun entry => entry.1 = user).map (·.2)

/-- A relative path that starts with a tilde is a path in a home directory. -/
def Path.expandUser (users : Users) (path : Path) : Except Fault Path :=
  match path.slashes, path.parts with
  | 0, ('~' :: user) :: rest =>
    match users.homeOf? user with
    | some home =>
      let base := Path.ofChars home
      .ok { base with parts := base.parts ++ rest }
    | none => .error .noHome
  | _, _ => .ok path

end ComponentAtlas
