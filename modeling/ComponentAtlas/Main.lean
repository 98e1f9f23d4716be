/-
Module: ComponentAtlas.Main
Purpose: The program.  Its arguments are a command, and the first line of its input
  describes the machine: a JSON object with the date under `now`, the directory of
  the program under `directory`, the home directory under `home`, and under `files`
  an object from paths to texts.
Main exports:
  main
-/
import ComponentAtlas.CommandLine.Run

namespace ComponentAtlas

def describedText (description : Data) (name default : String) : String :=
  match description.field? name with
  | some (.text value) => value
  | _ => default

def describedTime (description : Data) : Timestamp :=
  (Timestamp.ofText? (describedText description "now" "")).getD (Timestamp.ofFileTime 0)

def putDescribed (directory : Path) (now : Timestamp) (disk : Disk) : Key × Data → Disk
  | (.text name, .text content) =>
    disk.put (directory.join (Path.ofText name)).normal.parts
      (.file (Text.Utf8.encode content.toList) now)
  | _ => disk

def describedFiles (description : Data) : Entries :=
  match description.field? "files" with
  | some (.map entries) => entries
  | _ => []

def describedMachine (description : Data) : Machine :=
  let directory := Path.ofText (describedText description "directory" "/")
  let now := describedTime description
  { disk := (describedFiles description).foldl (putDescribed directory now)
      { root := Entry.emptyDirectory }
    users := { home := (describedText description "home" "/").toList, others := [] }
    directory }

/-- The description in a line; a line that holds none stands for an empty machine. -/
def descriptionIn (line : String) : Data :=
  match Json.read line with
  | .ok description => description
  | .error _ => .null

def endingOf (result : Except Fault CommandLine.Outcome) : CommandLine.Outcome :=
  match result with
  | .ok outcome => outcome
  | .error fault =>
    { exit := 1, output := "", log := fault.kind.label ++ ": " ++ fault.text ++ "\n" }

end ComponentAtlas

open ComponentAtlas in
def main (args : List String) : IO UInt32 := do
  let description := descriptionIn (← (← IO.getStdin).getLine)
  let ending := endingOf
    (CommandLine.run (describedMachine description) 0 (describedTime description) args)
  (← IO.getStdout).putStr ending.output
  (← IO.getStderr).putStr ending.log
  return ending.exit.toUInt32
