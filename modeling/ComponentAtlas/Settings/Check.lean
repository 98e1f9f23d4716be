/-
Module: ComponentAtlas.Settings.Check
Purpose: The errors and warnings of written settings.
Main exports:
  CheckResult, checkEntries
-/
import ComponentAtlas.Data.Literal
import ComponentAtlas.Disk.Lookup
import ComponentAtlas.Settings.Basic

namespace ComponentAtlas.Settings

/-- Errors forbid a run; warnings are only told. -/
structure CheckResult where
  errors : List String := []
  warnings : List String := []
deriving Repr, DecidableEq

namespace CheckResult

def error (message : String) : CheckResult := { errors := [message] }

def warning (message : String) : CheckResult := { warnings := [message] }

def append (first second : CheckResult) : CheckResult :=
  { errors := first.errors ++ second.errors, warnings := first.warnings ++ second.warnings }

instance : Append CheckResult := ⟨append⟩

def all (results : List CheckResult) : CheckResult := results.foldl append {}

def errorIf (condition : Bool) (message : String) : CheckResult :=
  if condition then error message else {}

def warningIf (condition : Bool) (message : String) : CheckResult :=
  if condition then warning message else {}

def isValid (result : CheckResult) : Bool := result.errors.isEmpty

def data (result : CheckResult) : Data :=
  .record [("errors", .texts result.errors), ("warnings", .texts result.warnings)]

end CheckResult

open CheckResult

/-- Where settings are checked: the files, the users, and the directory that
relative paths start from. -/
structure Site where
  disk : Disk
  users : Users
  root : Path
deriving Repr

/-- The finding for a path at which there is something or nothing. -/
def presenceResult (written : String) : Disk.Presence → CheckResult
  | .nothing => warning ("Scan path does not exist: " ++ written)
  | .directory => {}
  | .other => error ("Scan path is not a directory: " ++ written)

/-- Data as it is quoted in a finding. -/
def quoted (value : Data) : Except Fault String :=
  if value.isQuotable then .ok value.literal else .error .numberUnwritable

def checkScanPath (site : Site) : Data → Except Fault CheckResult
  | .text written => do
    let path ← (Path.ofText written).expandUser site.users
    return presenceResult written (← site.disk.presence (site.root.join path))
  | value => do return error ("scanPath must be a string: " ++ (← quoted value))

def checkScanPaths (site : Site) : Option Data → Except Fault CheckResult
  | some (.list (first :: rest)) => do
    return CheckResult.all (← (first :: rest).mapM (checkScanPath site))
  | _ => .ok (error "scanPaths must be a non-empty list")

def isText : Data → Bool
  | .text _ => true
  | _ => false

def checkTextItem (label : String) (item : Data) : Except Fault CheckResult :=
  if isText item then .ok {}
  else do return error (label ++ " entries must be strings: " ++ (← quoted item))

def checkTextList (label : String) (mayBeEmpty : Bool) : Option Data → Except Fault CheckResult
  | some (.list items) =>
    if items.isEmpty && !mayBeEmpty then .ok (error (label ++ " must be a non-empty list"))
    else do return CheckResult.all (← items.mapM (checkTextItem label))
  | _ => .ok (error (label ++ " must be " ++ if mayBeEmpty then "a list" else "a non-empty list"))

/-- A framework is switched on when it says so or says nothing. -/
def isSwitchedOn : Data → Bool
  | .map entries =>
    match Entries.find? entries (.text "enabled") with
    | none | some (.bool true) => true
    | _ => false
  | _ => false

def isBoolOrMissing : Option Data → Bool
  | none | some (.bool _) => true
  | _ => false

/-- The value is a list with something in it. -/
def isFilledList : Option Data → Bool
  | some (.list (_ :: _)) => true
  | _ => false

def isListOrMissing : Option Data → Bool
  | none | some (.list _) => true
  | _ => false

/-- The name of a framework, when it is a text that is not empty. -/
def usableName? : Option Data → Option String
  | some (.text name) => if name.isEmpty then none else some name
  | _ => none

def checkFrameworkEntries (entries : Entries) : CheckResult :=
  let field (name : String) := Entries.find? entries (.text name)
  let name? := usableName? (field "name")
  let name := name?.getD "<unnamed>"
  errorIf name?.isNone "Framework name is required and must be a string" ++
    errorIf (!isBoolOrMissing (field "enabled"))
      ("Framework enabled must be a boolean: " ++ name) ++
    errorIf (!isFilledList (field "fileExtensions"))
      ("Framework fileExtensions must be a non-empty list: " ++ name) ++
    CheckResult.all (["componentPatterns", "stylePatterns"].map fun key =>
      errorIf (!isListOrMissing (field key)) ("Framework " ++ key ++ " must be a list: " ++ name))

def checkFramework : Data → Except Fault CheckResult
  | .map entries => .ok (checkFrameworkEntries entries)
  | value => do return error ("Framework entries must be mappings: " ++ (← quoted value))

def checkFrameworks : Option Data → Except Fault CheckResult
  | some (.list (first :: rest)) => do
    return warningIf (!(first :: rest).any isSwitchedOn) "No frameworks are enabled" ++
      CheckResult.all (← (first :: rest).mapM checkFramework)
  | _ => .ok (error "frameworks must be a non-empty list")

/-- The value as a number, when it is one; a truth value is none. -/
def amount? : Option Data → Option Amount
  | some (.int value) => some (.whole value)
  | some (.float value) => some (.real value)
  | _ => none

/-- The amount is less than a small whole number. -/
def isBelow (limit : Int) : Amount → Bool
  | .whole value => value < limit
  | .real value => value < Float.ofInt limit

def checkInterval (autoRefresh interval : Option Data) : CheckResult :=
  match (amount? interval).filter fun amount => !isBelow 0 amount with
  | none => error "refreshInterval must be a non-negative number"
  | some amount =>
    let isOn := match autoRefresh with | some (.bool true) => true | _ => false
    warningIf (isBelow 60 amount && isOn)
      "refreshInterval less than 60 seconds may impact performance"

def isAbsent : Option Data → Bool
  | none | some .null => true
  | _ => false

def isPositiveInt : Option Data → Bool
  | some (.int value) => 0 < value
  | _ => false

def checkCaches (entries : Entries) : CheckResult :=
  let field (name : String) := Entries.find? entries (.text name)
  let ttl := field "designSystemTtl"
  CheckResult.all (["cacheEnabled", "autoRefresh"].map fun key =>
      errorIf (!isBoolOrMissing (field key)) (key ++ " must be a boolean")) ++
    checkInterval (field "autoRefresh") (field "refreshInterval") ++
    errorIf (!isAbsent (field "cacheMaxSize") && !isPositiveInt (field "cacheMaxSize"))
      "cacheMaxSize must be a positive integer" ++
    errorIf (!isAbsent ttl && !(amount? ttl).any fun amount => !isBelow 0 amount)
      "designSystemTtl must be a non-negative number"

def checkEntries (site : Site) (entries : Entries) : Except Fault CheckResult := do
  let field (name : String) := Entries.find? entries (.text name)
  let scanPaths ← checkScanPaths site (field "scanPaths")
  let excluded ← checkTextList "excludePatterns" true (field "excludePatterns")
  let frameworks ← checkFrameworks (field "frameworks")
  let patterns ← checkTextList "componentPatterns" false (field "componentPatterns")
  return scanPaths ++ excluded ++ frameworks ++ patterns ++ checkCaches entries

end ComponentAtlas.Settings
