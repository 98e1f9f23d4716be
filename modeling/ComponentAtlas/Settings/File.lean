/-
Module: ComponentAtlas.Settings.File
Purpose: Configuration files.
Main exports:
  defaultFileName, entriesOfText, entriesAt, filePath, load, fileText
-/
import ComponentAtlas.Data.Reader
import ComponentAtlas.Disk.Machine
import ComponentAtlas.Settings.Coercion
import ComponentAtlas.Settings.Merge
import ComponentAtlas.Text.Lines

namespace ComponentAtlas.Settings

open ComponentAtlas.Text

/-- The name of a configuration file where none is given. -/
def defaultFileName : String := "componentlens.config.json"

/-- The ending of the file says that it is written in YAML; any other file is
written in JSON. -/
def isYaml (path : Path) : Bool :=
  [".yml".toList, ".yaml".toList].contains (lower path.extension)

/-- The data that the text of a file stands for. -/
def dataOfText (yaml : Reader) (path : Path) (text : String) : Except ReadingFault Data :=
  (if isYaml path then yaml else Reader.json).read text

/-- The failure to read a configuration file.  What a reader says about the format is told
as a fault of the settings; anything else that stops the reader stops the program. -/
def readingFault (path : Path) : ReadingFault → Fault
  | .malformed => .unreadableSettings (String.ofList path.name)
  | .stopped fault => fault

/-- The entries that the text of a file stands for.  A blank text and null stand
for none. -/
def entriesOfText (yaml : Reader) (path : Path) (text : List Char) : Except Fault Entries :=
  if isAllBlank text then .ok []
  else
    match dataOfText yaml path (String.ofList text) with
    | .ok (.map entries) => .ok entries
    | .ok .null => .ok []
    | .ok _ => .error (.settingsNotMapping (String.ofList path.name))
    | .error error => .error (readingFault path error)

/-- The entries of a configuration file; a missing file has none. -/
def entriesAt (disk : Disk) (path : Path) (yaml : Reader := .plainYaml) :
    Except Fault Entries := do
  if ← disk.isPresent path then
    let (content, _) ← disk.contentAt path
    match Utf8.decode content with
    | .ok text => entriesOfText yaml path (withLineFeeds text)
    | .error fault => .error (.undecodable fault)
  else return []

/-- The configuration file that a path stands for: in a directory, the one with the
default name. -/
def filePath (machine : Machine) (path : Path) : Except Fault Path := do
  let path ← path.expandUser machine.users
  let isDirectory ← machine.isDirectory path
  machine.disk.realPath
    (machine.directory.join (if isDirectory then path.child defaultFileName.toList else path))

/-- The entries of a configuration file over the default ones. -/
def entriesOverDefault (machine : Machine) (path : Path) : Except Fault Entries := do
  overlay defaultEntries (← entriesAt machine.disk path machine.yaml)

def load (machine : Machine) (path : Path) : Except Fault Settings := do
  ofEntries (← entriesOverDefault machine (← filePath machine path))

/-- The text of a configuration file that holds the settings. -/
def fileText (settings : Settings) : String := Json.writeIndented settings.data ++ "\n"

end ComponentAtlas.Settings
