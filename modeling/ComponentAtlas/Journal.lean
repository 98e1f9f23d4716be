/-
Module: ComponentAtlas.Journal
Purpose: Log records, the levels at which they count, and their lines on a
  console.
Main exports:
  Level, Severity, Record, Console
-/

namespace ComponentAtlas

/-- How much a log record matters. -/
inductive Level where
  | debug
  | info
  | warning
  | error
  | critical
deriving Repr, DecidableEq

/-- The number of the level; a higher one matters more. -/
def Level.number : Level → Nat
  | .debug => 10
  | .info => 20
  | .warning => 30
  | .error => 40
  | .critical => 50

def Level.label : Level → String
  | .debug => "DEBUG"
  | .info => "INFO"
  | .warning => "WARNING"
  | .error => "ERROR"
  | .critical => "CRITICAL"

/-- How bad a failure is. -/
inductive Severity where
  | low
  | medium
  | high
  | critical
deriving Repr, DecidableEq

namespace Severity

def all : List Severity := [.low, .medium, .high, .critical]

def label : Severity → String
  | .low => "low"
  | .medium => "medium"
  | .high => "high"
  | .critical => "critical"

/-- The word for the severity in log records. -/
def mark : Severity → String
  | .low => "LOW"
  | .medium => "MEDIUM"
  | .high => "HIGH"
  | .critical => "CRITICAL"

def ofLabel? (label : String) : Option Severity := all.find? fun severity => severity.label = label

def level : Severity → Level
  | .low => .info
  | .medium => .warning
  | .high => .error
  | .critical => .critical

/-- Every severity is found under its word. -/
theorem ofLabel?_label (severity : Severity) : ofLabel? severity.label = some severity := by
  cases severity <;> rfl

end Severity

/-- The level for a severity given by its word; any other word counts as a
warning. -/
def levelOfLabel (label : String) : Level :=
  ((Severity.ofLabel? label).map Severity.level).getD .warning

namespace Journal

/-- A log record of one part of the program; the program as a whole has no
name. -/
structure Record where
  level : Level
  logger : String
  message : String
deriving Repr, DecidableEq

/-- The name of the program in front of its log lines. -/
def program : String := "componentlens"

def fullName (logger : String) : String :=
  if logger.isEmpty then program else program ++ "." ++ logger

def Record.line (record : Record) : String :=
  "[" ++ program ++ "] " ++ record.level.label ++ " " ++
    (if record.logger.isEmpty then "-" else record.logger) ++ ": " ++ record.message ++ "\n"

/-- A console shows the records from a level on. -/
structure Console where
  level : Level
  text : String := ""
deriving Repr

/-- Write a record on the console, if its level is high enough. -/
def Console.write (console : Console) (record : Record) : Console :=
  if console.level.number ≤ record.level.number then
    { console with text := console.text ++ record.line }
  else console

def shown (level : Level) (records : List Record) : String :=
  (records.foldl Console.write { level }).text

/-- The level of a console: a given one, else by whether details are wanted. -/
def chosenLevel (verbose : Bool) (level : Option Level) : Level :=
  level.getD (if verbose then .debug else .info)

end Journal

end ComponentAtlas
