/-
Module: ComponentAtlas.CommandLine.Command
Purpose: The commands of the program and their options.
Main exports:
  Command, Invocation, Invocation.ofArguments
-/
import ComponentAtlas.CommandLine.Arguments
import ComponentAtlas.Decimal.Reading

namespace ComponentAtlas.CommandLine

open ComponentAtlas.Decimal

/-- What the program is asked to do. -/
inductive Command where
  | scan
  | list (category framework : Option String)
  | details (name : String)
  | similar (name : String) (threshold : Float) (limit : Option Int)
  | design (category : Option String)
  | categories
  | validate
  | serve (host : String) (socket : Int)
deriving Repr, DecidableEq

/-- A command with the options that all commands share. -/
structure Invocation where
  verbose : Bool
  quiet : Bool
  logFile : Option String
  config : Option String
  root : String
  command : Command
deriving Repr, DecidableEq

def helpOption : OptionSpec := { key := "help", letter := some 'h', long := "help", role := .help }

/-- The option that asks for more log records. -/
def verboseOption : OptionSpec :=
  { key := "verbose", letter := some 'v', long := "verbose", role := .switch }

/-- An option with a value that passes a test. -/
def valueOption (name : String) (accepts : String → Bool) : OptionSpec :=
  { key := name, long := name, role := .value accepts }

def textOption (name : String) : OptionSpec := valueOption name fun _ => true

def numberOption (name : String) : OptionSpec :=
  valueOption name fun text => (readFloat? text.toList).isSome

def countOption (name : String) : OptionSpec :=
  valueOption name fun text => (readInt? text.toList).isSome

def leadingOptions : List OptionSpec :=
  [helpOption, verboseOption,
    { key := "quiet", letter := some 'q', long := "quiet", role := .switch },
    textOption "log-file", textOption "config", textOption "root"]

/-- A command with its options, the number of its operands, and what it asks for. -/
structure CommandSpec where
  name : String
  options : List OptionSpec := []
  operands : Nat := 0
  command : Found → Command

def Found.name (found : Found) : String := found.operands.headD ""

def Found.number (found : Found) (key : String) (default : Float) : Float :=
  ((found.value? key).bind fun text => readFloat? text.toList).getD default

def Found.count? (found : Found) (key : String) : Option Int :=
  (found.value? key).bind fun text => readInt? text.toList

def commandSpecs : List CommandSpec :=
  [{ name := "scan", command := fun _ => .scan },
    { name := "list", options := [textOption "category", textOption "framework"]
      command := fun found => .list (found.value? "category") (found.value? "framework") },
    { name := "show", operands := 1, command := fun found => .details found.name },
    { name := "similar", operands := 1
      options := [numberOption "threshold", countOption "max-results"]
      command := fun found =>
        .similar found.name (found.number "threshold" 0.3) (found.count? "max-results") },
    { name := "design-system", options := [textOption "category"]
      command := fun found => .design (found.value? "category") },
    { name := "categories", command := fun _ => .categories },
    { name := "validate", command := fun _ => .validate },
    { name := "serve", options := [textOption "host", countOption "port"]
      command := fun found =>
        .serve ((found.value? "host").getD "127.0.0.1") ((found.count? "port").getD 8000) }]

def Command.word : Command → String
  | .scan => "scan"
  | .list _ _ => "list"
  | .details _ => "show"
  | .similar _ _ _ => "similar"
  | .design _ => "design-system"
  | .categories => "categories"
  | .validate => "validate"
  | .serve _ _ => "serve"

def CommandSpec.allOptions (spec : CommandSpec) : List OptionSpec :=
  [helpOption, verboseOption] ++ spec.options

def commandSpec (word : String) : Except Stop CommandSpec :=
  match commandSpecs.find? fun spec => spec.name = word with
  | some spec => .ok spec
  | none => .error .usage

/-- What the arguments of the program ask for.  Arguments that nothing takes are only
refused at the end, so that a later wish for help still counts. -/
def Invocation.ofArguments (args : List String) : Except Stop Invocation := do
  let (leading, rest) ← readLeading leadingOptions args
  let spec ← commandSpec (rest.headD "")
  let found ← readOptions spec.allOptions spec.operands (rest.drop 1)
  if leading.strays || found.strays then .error .usage
  return {
    verbose := leading.has "verbose" || found.has "verbose"
    quiet := leading.has "quiet"
    logFile := leading.value? "log-file"
    config := leading.value? "config"
    root := (leading.value? "root").getD "."
    command := spec.command found }

end ComponentAtlas.CommandLine
