/-
Module: ComponentAtlas.Catalog.Query
Purpose: The questions that a catalog answers.
Main exports:
  Answer, Catalog.summaries, Catalog.details, Catalog.similar, Catalog.describe,
  Catalog.design, Catalog.categories, Catalog.suggest, Catalog.cacheStats,
  Catalog.errorReport, Catalog.updateSettings
-/
import ComponentAtlas.Catalog.Description
import ComponentAtlas.Catalog.Refresh

namespace ComponentAtlas

/-- The catalog after a question, and its answer. -/
abbrev Answer (α : Type) := Catalog × Except Fault α

namespace Catalog

/-- Answer a question about the current components. -/
def ask {α : Type} (catalog : Catalog) (moment : Moment)
    (answer : List Component → Except Fault α) : Answer α :=
  let (next, components) := catalog.current moment
  (next, components.bind answer)

/-- Go on after an answer with another question. -/
def andThen {α β : Type} (first : Answer α) (next : Catalog → α → Answer β) : Answer β :=
  match first with
  | (catalog, .ok value) => next catalog value
  | (catalog, .error fault) => (catalog, .error fault)

/-- A condition on a component is met; an empty one always is. -/
def admits (wanted : Option String) (value : String) : Bool :=
  match wanted with
  | none => true
  | some text => text.isEmpty || value = text

/-- The components of a category and a framework, in short. -/
def summaries (catalog : Catalog) (moment : Moment) (category framework : Option String) :
    Answer (List Summary) :=
  catalog.ask moment fun components =>
    .ok ((components.filter fun component =>
      admits category component.category && admits framework component.framework).map
        Component.summary)

/-- The first component with a name. -/
def named (name : String) (components : List Component) : Except Fault Component :=
  match components.find? fun component => component.name = name with
  | some component => .ok component
  | none => .error (.componentMissing name)

def details (catalog : Catalog) (moment : Moment) (name : String) : Answer Component :=
  if name.isEmpty then (catalog, .error .nameRequired) else catalog.ask moment (named name)

/-- The components most like the one with a name. -/
def similar (catalog : Catalog) (moment : Moment) (name : String) (threshold : Float)
    (limit : Option Int) : Answer (List (Match Float)) :=
  andThen (catalog.details moment name) fun next target =>
    next.ask moment fun components =>
      .ok (Similarity.similarTo target components threshold limit false)

/-- The components whose name or description mentions a text. -/
def describe (catalog : Catalog) (moment : Moment) (description : String)
    (props : List String) : Answer (List (Match Float)) :=
  if description.isEmpty then (catalog, .error .descriptionRequired)
  else
    catalog.ask moment fun components =>
      .ok (Description.matching (.of description props) components)

/-- The key under which the design system of a category is kept; that of all
components has a star. -/
def designKey (category : Option String) : String :=
  let name := category.getD ""
  "design-system:" ++ if name.isEmpty then "*" else name

/-- The components of a category, or all of them. -/
def ofCategory (category : Option String) (components : List Component) : List Component :=
  components.filter fun component => admits category component.category

/-- The design system of some components, from the cache if it is kept there. -/
def designOf (catalog : Catalog) (moment : Moment) (category : Option String)
    (components : List Component) : Answer Design.Snapshot :=
  let key := designKey category
  match catalog.designs.get moment.designClock key with
  | (designs, some snapshot) => ({ catalog with designs }, .ok snapshot)
  | (designs, none) =>
    let snapshot := Design.Snapshot.of moment.now (ofCategory category components)
    ({ catalog with designs := designs.set moment.designClock key snapshot none }, .ok snapshot)

/-- The design system of a category, or of all components. -/
def design (catalog : Catalog) (moment : Moment) (category : Option String) :
    Answer Design.Snapshot :=
  andThen (catalog.current moment) fun next components =>
    next.designOf moment category components

/-- Add a component to the names of its category; a new category comes last. -/
def addToGroup (groups : List (String × List String)) (component : Component) :
    List (String × List String) :=
  match groups with
  | [] => [(component.category, [component.name])]
  | (category, names) :: rest =>
    if category = component.category then (category, names ++ [component.name]) :: rest
    else (category, names) :: addToGroup rest component

/-- The number of names that a category shows. -/
def exampleCount : Nat := 3

/-- A category with the names of its components. -/
def categoryInfo (category : String) (names : List String) : CategoryInfo :=
  { name := category
    componentCount := names.length
    description := "Components in the " ++ category ++ " category"
    examples := names.take exampleCount }

/-- The categories of some components, in the order in which they are met. -/
def categoriesOf (components : List Component) : List CategoryInfo :=
  (components.foldl addToGroup []).map fun (category, names) => categoryInfo category names

def categories (catalog : Catalog) (moment : Moment) : Answer (List CategoryInfo) :=
  catalog.ask moment fun components => .ok (categoriesOf components)

/-- The log record of suggestions that are made without the text of a file. -/
def withoutContent (name : String) (fault : Fault) : Event :=
  .note (record .debug
    ("Suggesting categories without content for " ++ name ++ ": " ++ fault.text))

/-- The categories that a component may belong to.  Its file is read once more; when
that fails, the text does not count. -/
def suggestFor (catalog : Catalog) (moment : Moment) (name : String) (component : Component) :
    Answer (List (Category.Suggestion Float)) :=
  match readSource moment.disk (Path.ofText component.filePath) with
  | .ok (source, _) => (catalog, .ok (catalog.detector.suggest component (some source)))
  | .error fault =>
    if fault.isUnreadable then
      (catalog.observe [withoutContent name fault],
        .ok (catalog.detector.suggest component none))
    else (catalog, .error fault)

/-- The categories that the component with a name may belong to. -/
def suggest (catalog : Catalog) (moment : Moment) (name : String) :
    Answer (List (Category.Suggestion Float)) :=
  andThen (catalog.details moment name) fun next component =>
    next.suggestFor moment name component

def cacheStats (catalog : Catalog) : Data :=
  .record [("components", catalog.cache.stats catalog.cacheMode),
    ("design_system", catalog.designs.stats)]

def reportData (report : Report) : Data :=
  .record [("operation", .text report.operation), ("severity", .text report.severity.label),
    ("message", .text report.fault.message), ("file_path", .textOrNull report.filePath),
    ("recoverable", .bool report.recoverable)]

def errorReport (catalog : Catalog) : Data :=
  .record [("summary", catalog.ledger.summary.data),
    ("errors", .list (catalog.ledger.reports.map reportData))]

/-- Lay written settings over those of the project. -/
def updateSettings (catalog : Catalog) (updates : Entries) : Answer Unit :=
  let (workspace, fault?) := catalog.workspace.update updates
  ({ catalog with workspace },
    match fault? with
    | some fault => .error fault
    | none => .ok ())

end Catalog

end ComponentAtlas
