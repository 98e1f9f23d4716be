/-
Module: ComponentAtlas.Component.Basic
Purpose: What is known about a component of a project, and how it is reported.
Main exports:
  PropDecl, StyleDecl, Component, Summary, Match, CategoryInfo, and their data
-/
import ComponentAtlas.Data.Basic
import ComponentAtlas.Time.Timestamp

namespace ComponentAtlas

/-- A prop that a component declares. -/
structure PropDecl where
  name : String
  type : String
  required : Bool
  description : Option String := none
deriving Repr, DecidableEq, Inhabited

/-- A style declaration of a component. -/
structure StyleDecl where
  property : String
  value : String
  frequency : Int := 1
  /-- Where the declaration stands: in a style object or in a class attribute. -/
  context : String := "style"
  /-- The block of the style object. -/
  name : Option String := none
deriving Repr, DecidableEq, Inhabited

/-- The framework that a component is written for. -/
def reactNative : String := "react-native"

def tailwind : String := "tailwind"

/-- Components whose framework does not show. -/
def unknownFramework : String := "unknown"

/-- The category of components that fit no other. -/
def generalCategory : String := "general"

/-- What is known about the component in one file. -/
structure Component where
  name : String
  filePath : String
  framework : String
  props : List PropDecl
  styles : List StyleDecl
  usageExamples : List String
  dependencies : List String
  category : String
  lastModified : Timestamp
  description : Option String := none
deriving Repr, DecidableEq, Inhabited

/-- The short view of a component in lists. -/
structure Summary where
  name : String
  filePath : String
  framework : String
  category : String
  propsCount : Nat
  lastModified : Timestamp
deriving Repr, DecidableEq

def Component.summary (component : Component) : Summary :=
  { name := component.name
    filePath := component.filePath
    framework := component.framework
    category := component.category
    propsCount := component.props.length
    lastModified := component.lastModified }

/-- A component found by a query, with its score, a number of some type, and what
speaks for and against it. -/
structure Match (α : Type) where
  component : Component
  similarity : α
  reasons : List String := []
  differences : List String := []
deriving Repr

/-- A category with the number of its components and a few of their names. -/
structure CategoryInfo where
  name : String
  componentCount : Nat
  description : String
  examples : List String
deriving Repr, DecidableEq

/-!
Reports show records as mappings, with the fields in the order of their
declaration.
-/

def Timestamp.data (time : Timestamp) : Data := .text time.text

def PropDecl.data (prop : PropDecl) : Data :=
  .record [("name", .text prop.name), ("type", .text prop.type),
    ("required", .bool prop.required), ("description", .textOrNull prop.description)]

def StyleDecl.data (style : StyleDecl) : Data :=
  .record [("property", .text style.property), ("value", .text style.value),
    ("frequency", .int style.frequency), ("context", .text style.context),
    ("name", .textOrNull style.name)]

def Component.data (component : Component) : Data :=
  .record [("name", .text component.name), ("file_path", .text component.filePath),
    ("framework", .text component.framework),
    ("props", .list (component.props.map PropDecl.data)),
    ("styles", .list (component.styles.map StyleDecl.data)),
    ("usage_examples", .texts component.usageExamples),
    ("dependencies", .texts component.dependencies), ("category", .text component.category),
    ("last_modified", component.lastModified.data),
    ("description", .textOrNull component.description)]

def Summary.data (summary : Summary) : Data :=
  .record [("name", .text summary.name), ("file_path", .text summary.filePath),
    ("framework", .text summary.framework), ("category", .text summary.category),
    ("props_count", .int summary.propsCount), ("last_modified", summary.lastModified.data)]

/-- A match as data, with the whole component. -/
def Match.data (found : Match Float) : Data :=
  .record [("component", found.component.data), ("similarity", .float found.similarity),
    ("match_reasons", .texts found.reasons), ("differences", .texts found.differences)]

def CategoryInfo.data (info : CategoryInfo) : Data :=
  .record [("name", .text info.name), ("component_count", .int info.componentCount),
    ("description", .text info.description), ("examples", .texts info.examples)]

end ComponentAtlas
