/-
Module: ComponentAtlas.Design.Pattern
Purpose: Shapes and declarations that occur again and again.
Main exports:
  signature, occurrences, recurring, Pattern, patterns
-/
import ComponentAtlas.Category.Detector
import ComponentAtlas.Component.Basic
import ComponentAtlas.Component.Imports

namespace ComponentAtlas.Design

/-- The shape of a component: its category, the types of its props in order, and
the number of its styles. -/
def signature (component : Component) : String :=
  let types := (component.props.map (·.type)).mergeSort fun a b => decide (a ≤ b)
  component.category ++ ":props(" ++ ",".intercalate types ++ "):styles(" ++
    toString component.styles.length ++ ")"

def declarationText (style : StyleDecl) : String := style.property ++ ":" ++ style.value

/-- The signatures of a component, one an occurrence. -/
def signaturesOf (component : Component) : List String :=
  signature component :: component.styles.map declarationText

/-- All signatures with the names of their components. -/
def occurrences (components : List Component) : List (String × String) :=
  components.flatMap fun component =>
    (signaturesOf component).map fun text => (text, component.name)

def maxPatterns : Nat := 20

def maxExamples : Nat := 3

/-- The signatures that occur more than once with the number of their occurrences,
the most frequent first and equal ones in the order of first occurrence. -/
def recurring (seen : List (String × String)) : List (String × Nat) :=
  (((seen.map (·.1)).foldl Category.countOne []).filter fun entry => 1 < entry.2).mergeSort
    fun a b => b.2 ≤ a.2

/-- The first names of components in which a signature occurs. -/
def examplesOf (seen : List (String × String)) (text : String) : List String :=
  (distinct ((seen.filter fun entry => entry.1 = text).map (·.2))).take maxExamples

/-- A pattern with the number of its occurrences and a few examples. -/
structure Pattern where
  name : String
  text : String
  usage : Nat
  examples : List String
deriving Repr, DecidableEq

/-- The most frequent patterns of the components. -/
def patterns (components : List Component) : List Pattern :=
  let seen := occurrences components
  ((recurring seen).take maxPatterns).mapIdx fun index (text, usage) =>
    { name := "pattern-" ++ toString index, text, usage, examples := examplesOf seen text }

def Pattern.data (pattern : Pattern) : Data :=
  .record [("name", .text pattern.name), ("pattern", .text pattern.text),
    ("usage", .int pattern.usage), ("examples", .texts pattern.examples)]

end ComponentAtlas.Design
