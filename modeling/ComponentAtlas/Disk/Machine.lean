/-
Module: ComponentAtlas.Disk.Machine
Purpose: What a program sees of the machine it runs on.
Main exports:
  Machine, Machine.absolute, Machine.entryAt, Machine.isDirectory
-/
import ComponentAtlas.Data.Reader
import ComponentAtlas.Disk.Lookup

namespace ComponentAtlas

/-- The files, the users, the directory that the program was started in, and the reader of
YAML that is installed. -/
structure Machine where
  disk : Disk
  users : Users
  directory : Path
  yaml : Reader := .plainYaml

/-- A path seen from the directory of the program, with a home directory in place
of a tilde. -/
def Machine.absolute (machine : Machine) (path : Path) : Except Fault Path :=
  (path.expandUser machine.users).map machine.directory.join

/-- The entry that a path leads to from the directory of the program.  Only the path as it
is given can be too long. -/
def Machine.entryAt (machine : Machine) (path : Path) : Except DiskProblem Entry := do
  if path.isLong then .error .nameTooLong
  else
    machine.disk.standing
      (← machine.disk.locateFrom maxLinks [] (machine.directory.join path).parts)

/-- A path leads to a directory, seen from the directory of the program. -/
def Machine.isDirectory (machine : Machine) (path : Path) : Except Fault Bool :=
  if Disk.hasNull path then .ok false
  else (Disk.presenceOf path (machine.entryAt path)).map fun presence => presence = .directory

end ComponentAtlas
