/-
Module: ComponentAtlas.Fault
Purpose: Everything that can go wrong, by cause, with its message.
Main exports:
  DiskProblem, FaultKind, Fault, Fault.kind, Fault.text, Fault.message
-/
import ComponentAtlas.Data.Literal
import ComponentAtlas.Text.Utf8

namespace ComponentAtlas

/-- Why the file system refuses an operation. -/
inductive DiskProblem where
  | missing
  | denied
  | fileExists
  | notDirectory
  | isDirectory
  /-- A name, or the path as a whole, is longer than the machine takes. -/
  | nameTooLong
  | linkLoop
deriving Repr, DecidableEq

/-- The number under which the problem is reported. -/
def DiskProblem.number : DiskProblem → Nat
  | .missing => 2
  | .denied => 13
  | .fileExists => 17
  | .notDirectory => 20
  | .isDirectory => 21
  | .nameTooLong => 36
  | .linkLoop => 40

def DiskProblem.text : DiskProblem → String
  | .missing => "No such file or directory"
  | .denied => "Permission denied"
  | .fileExists => "File exists"
  | .notDirectory => "Not a directory"
  | .isDirectory => "Is a directory"
  | .nameTooLong => "File name too long"
  | .linkLoop => "Too many levels of symbolic links"

/-- With the problem there is nothing at a path.  Any other problem leaves open what
there is. -/
def DiskProblem.isAbsence : DiskProblem → Bool
  | .missing | .notDirectory | .linkLoop => true
  | _ => false

/-- The kind of a failure, as far as handling it depends on the kind. -/
inductive FaultKind where
  | disk
  | fileMissing
  | fileDenied
  | fileExists
  | notDirectory
  | isDirectory
  | timeout
  | badValue
  | undecodable
  | badGrammar
  | lookup
  | missingKey
  | missingComponent
  | badType
  | overflow
  | runtime
  /-- A part of the program that is called from outside of it nested too deeply.  How deep
  the program itself may nest is not modelled. -/
  | recursion
  | configuration
  /-- Any kind that needs no handling of its own, by its label. -/
  | other (label : String)
deriving Repr, DecidableEq

namespace FaultKind

/-- The kinds that have a label of their own. -/
def labelled : List (FaultKind × String) :=
  [(.disk, "OSError"), (.fileMissing, "FileNotFoundError"), (.fileDenied, "PermissionError"),
    (.fileExists, "FileExistsError"), (.notDirectory, "NotADirectoryError"),
    (.isDirectory, "IsADirectoryError"), (.timeout, "TimeoutError"), (.badValue, "ValueError"),
    (.undecodable, "UnicodeDecodeError"), (.badGrammar, "SyntaxError"),
    (.lookup, "LookupError"), (.missingKey, "KeyError"),
    (.missingComponent, "ComponentNotFoundError"), (.badType, "TypeError"),
    (.overflow, "OverflowError"), (.runtime, "RuntimeError"), (.recursion, "RecursionError"),
    (.configuration, "ConfigError")]

/-- The label stands in reports for a failure without a message. -/
def label (kind : FaultKind) : String :=
  match kind with
  | .other label => label
  | kind => ((labelled.find? fun entry => entry.1 = kind).map (·.2)).getD ""

def ofLabel (label : String) : FaultKind :=
  ((labelled.find? fun entry => entry.2 = label).map (·.1)).getD (.other label)

/-- Failures of the file system, whatever the operation. -/
def isDisk : FaultKind → Bool
  | .disk | .fileMissing | .fileDenied | .fileExists | .notDirectory | .isDirectory
  | .timeout => true
  | _ => false

def isBadValue : FaultKind → Bool
  | .badValue | .undecodable => true
  | _ => false

def isRuntime : FaultKind → Bool
  | .runtime | .recursion | .configuration => true
  | _ => false

/-- Work can go on after a failure of this kind. -/
def isRecoverable (kind : FaultKind) : Bool :=
  kind.isDisk || kind.isBadValue || kind = .badGrammar

end FaultKind

/-- What went wrong. -/
inductive Fault where
  /-- The file system refused an operation on a path. -/
  | disk (problem : DiskProblem) (path : String)
  /-- The content of a file is not text. -/
  | undecodable (fault : Text.Utf8.DecodeFault)
  /-- A path contains the null character. -/
  | nullInPath
  /-- A path whose links are to be followed contains the null character. -/
  | nullAmongLinks
  /-- Following the symbolic links of a path never ends. -/
  | linkLoop (path : String)
  /-- There is no home directory for a path that starts with a tilde. -/
  | noHome
  /-- A configuration file does not follow its format. -/
  | unreadableSettings (fileName : String)
  /-- A configuration file holds something other than a mapping. -/
  | settingsNotMapping (fileName : String)
  /-- The configuration has errors that forbid a run. -/
  | invalidSettings (errors : List String)
  /-- A whole number lies beyond every float. -/
  | numberTooLarge
  /-- A whole number has too many digits to be read. -/
  | numberTooLong (digits : Nat)
  /-- A whole number has too many digits to be written. -/
  | numberUnwritable
  /-- A framework name is a list or a mapping, so no entry can be found by it. -/
  | unusableName (kind : String)
  /-- No component has the name. -/
  | componentMissing (name : String)
  /-- A query that needs a name got none. -/
  | nameRequired
  /-- A query that needs a description got none. -/
  | descriptionRequired
  /-- The time of a file lies in a year that no date is in. -/
  | yearOutOfRange (year : Int)
  /-- The time of a file lies in a year that the machine has no number for. -/
  | timeTooLarge
  /-- Of two times that are compared, only one has a known offset. -/
  | incomparableTimes
  /-- A cache without room was asked for. -/
  | noCapacity
  /-- A ledger for less than no reports was asked for. -/
  | negativeCapacity
  /-- A failure was recorded under a severity that does not exist. -/
  | unknownSeverity (severity : String)
  /-- No grammar is installed for the language of a file. -/
  | noGrammar
  /-- No server is there to answer requests. -/
  | noServer
  /-- An extraction gave up with a message. -/
  | extraction (message : String)
  /-- A failure described only by its kind and text. -/
  | reported (kind : FaultKind) (text : String)
deriving Repr, DecidableEq

namespace Fault

def kind : Fault → FaultKind
  | .disk .missing _ => .fileMissing
  | .disk .denied _ => .fileDenied
  | .disk .fileExists _ => .fileExists
  | .disk .notDirectory _ => .notDirectory
  | .disk .isDirectory _ => .isDirectory
  | .disk .nameTooLong _ | .disk .linkLoop _ | .timeTooLarge => .disk
  | .undecodable _ => .undecodable
  | .nullInPath | .nullAmongLinks | .yearOutOfRange _ | .numberTooLong _ | .numberUnwritable
  | .nameRequired | .descriptionRequired | .noCapacity | .negativeCapacity
  | .unknownSeverity _ => .badValue
  | .linkLoop _ | .noHome | .noGrammar | .noServer | .extraction _ => .runtime
  | .unreadableSettings _ | .settingsNotMapping _ | .invalidSettings _ => .configuration
  | .numberTooLarge => .overflow
  | .unusableName _ | .incomparableTimes => .badType
  | .componentMissing _ => .missingComponent
  | .reported kind _ => kind

/-- The text of the failure; it may be empty for a reported one. -/
def text : Fault → String
  | .disk problem path =>
    "[Errno " ++ toString problem.number ++ "] " ++ problem.text ++ ": " ++ quoteText path
  | .undecodable fault => fault.message
  | .nullInPath => "embedded null byte"
  | .nullAmongLinks => "lstat: embedded null character in path"
  | .linkLoop path => "Symlink loop from " ++ quoteText path
  | .noHome => "Could not determine home directory."
  | .unreadableSettings fileName => "Failed to parse " ++ fileName
  | .settingsNotMapping fileName => fileName ++ " must contain a mapping at the root"
  | .invalidSettings errors => "Invalid configuration: " ++ "; ".intercalate errors
  | .numberTooLarge => "int too large to convert to float"
  | .numberTooLong digits =>
    "Exceeds the limit (4300 digits) for integer string conversion: value has " ++
      toString digits ++ " digits; use sys.set_int_max_str_digits() to increase the limit"
  | .numberUnwritable =>
    "Exceeds the limit (4300 digits) for integer string conversion; " ++
      "use sys.set_int_max_str_digits() to increase the limit"
  | .unusableName kind => "unhashable type: " ++ quoteText kind
  | .componentMissing name => "Component '" ++ name ++ "' not found"
  | .nameRequired => "Component name is required"
  | .descriptionRequired => "Description is required"
  | .yearOutOfRange year => "year " ++ toString year ++ " is out of range"
  | .timeTooLarge => "[Errno 75] Value too large for defined data type"
  | .incomparableTimes => "can't compare offset-naive and offset-aware datetimes"
  | .noCapacity => "max_size must be positive"
  | .negativeCapacity => "maxlen must be non-negative"
  | .unknownSeverity severity => "Unknown severity: " ++ severity
  | .noGrammar => "tree-sitter TypeScript grammar is not available"
  | .noServer => "No web server is available"
  | .extraction message => message
  | .reported _ text => text

/-- The text of the failure, or the label of its kind when there is no text. -/
def message (fault : Fault) : String :=
  if fault.text.isEmpty then fault.kind.label else fault.text

/-- A failure known by its kind and, if it has one, its message.  The message of a
missing key is the key, so it is shown quoted, and faulty grammar always has a
text. -/
def ofReport (kind : FaultKind) (message : Option String) : Fault :=
  match kind, message with
  | .missingKey, some key => .reported kind (quoteText key)
  | .badGrammar, none => .reported kind "None"
  | _, some text => .reported kind text
  | _, none => .reported kind ""

def details : Fault → List String
  | .invalidSettings errors => errors
  | _ => []

end Fault

end ComponentAtlas
