/-
Module: ComponentAtlas.Discovery.Analysis
Purpose: What is found out about a component from its file.
Main exports:
  readSource, Analysis, Analyzer, Analyzer.standard
-/
import ComponentAtlas.Category.Detector
import ComponentAtlas.Component.Documentation
import ComponentAtlas.Component.Framework
import ComponentAtlas.Component.Imports
import ComponentAtlas.Component.Naming
import ComponentAtlas.Disk.Lookup
import ComponentAtlas.Incident
import ComponentAtlas.Props.Extractor
import ComponentAtlas.Styles.Extraction

namespace ComponentAtlas

/-- The text of a file and the date of its last change. -/
def readSource (disk : Disk) (path : Path) : Except Fault (String × Timestamp) := do
  let (content, modified) ← disk.contentAt path
  match Text.Utf8.decode content with
  | .ok text => return (String.ofList text, ← Disk.dated modified)
  | .error fault => .error (.undecodable fault)

/-- The failure tells that a file cannot be read, not that the path is no path. -/
def Fault.isUnreadable (fault : Fault) : Bool :=
  fault.kind.isDisk || fault.kind = .undecodable

/-- What an analysis gives: the component, if its file can be read, and what
happened on the way. -/
structure Analysis where
  component : Option Component
  events : List Event
deriving Repr

/-- A way to find out about the component in a file. -/
structure Analyzer where
  analyze : Disk → Path → Except Fault Analysis

namespace Analysis

def unreadable (path : Path) (fault : Fault) : Event :=
  .incident
    { fault, operation := "read_component", filePath := path.text, severity := .medium
      note := { level := .warning, logger := "analyzer"
                message := "Failed to read component " ++ path.text ++ ": " ++ fault.text } }

/-- The event of a step of the analysis that failed. -/
def stepFailed (step : String) (path : Path) (fault : Fault) : Event :=
  .incident
    { fault, operation := "extract_" ++ step, filePath := path.text, severity := .low
      note := { level := .debug, logger := "analyzer"
                message := "Extraction step " ++ step ++ " failed for " ++ path.text ++ ": " ++
                  fault.text } }

/-- The result of a step.  A step that fails gives a default and an event, so that
the other steps still count. -/
def attempt {α : Type} (step : String) (path : Path) (default : α) :
    Except Fault α → α × List Event
  | .ok value => (value, [])
  | .error fault => (default, [stepFailed step path fault])

/-- The component in a text, as far as it does not depend on its category. -/
def componentIn (path : Path) (source : String) (modified : Timestamp)
    (props : List PropDecl) : Component :=
  let framework := frameworkOf source
  { name := nameOfPath path.text
    filePath := path.text
    framework
    props
    styles := Styles.stylesOf framework source
    usageExamples := (usageExamples source.toList).map String.ofList
    dependencies := (dependencies source.toList).map String.ofList
    category := generalCategory
    lastModified := modified
    description := (descriptionOf source.toList).map String.ofList }

/-- The category of a component: the one that is detected, or, without a detector,
the one that its path speaks of. -/
def categoryFor (detector : Option (Category.Detector Float)) (component : Component)
    (source : String) : String :=
  match detector with
  | some detector => detector.detect component (some source)
  | none => categoryOfPath component.filePath

def ofSource (extractor : Props.Extractor) (detector : Option (Category.Detector Float))
    (path : Path) (source : String) (modified : Timestamp) : Analysis :=
  let (props, events) :=
    attempt "props" path [] (extractor.extract source (String.ofList path.name))
  let component := componentIn path source modified props
  { component := some { component with category := categoryFor detector component source }
    events }

/-- The analysis of a file.  A file that cannot be read gives no component. -/
def ofFile (extractor : Props.Extractor) (detector : Option (Category.Detector Float))
    (disk : Disk) (path : Path) : Except Fault Analysis :=
  match readSource disk path with
  | .ok (source, modified) => .ok (ofSource extractor detector path source modified)
  | .error fault =>
    if fault.isUnreadable then .ok { component := none, events := [unreadable path fault] }
    else .error fault

end Analysis

/-- The analyzer that uses an extractor of props and, if there is one, a detector of
categories. -/
def Analyzer.standard (extractor : Props.Extractor)
    (detector : Option (Category.Detector Float)) : Analyzer :=
  { analyze := Analysis.ofFile extractor detector }

end ComponentAtlas
