/-
Module: ComponentAtlas.Design.Snapshot
Purpose: The design system of a set of components at one time.
Main exports:
  Snapshot, Snapshot.of, Snapshot.data
-/
import ComponentAtlas.Design.Color
import ComponentAtlas.Design.Measure
import ComponentAtlas.Design.Pattern

namespace ComponentAtlas.Design

/-- The design tokens and patterns of a set of components. -/
structure Snapshot where
  colors : Palette
  typography : Typography
  spacing : SpacingSystem
  patterns : List Pattern
  componentCount : Nat
  extractedAt : Timestamp
deriving Repr, DecidableEq

/-- The snapshot of the components at a time. -/
def Snapshot.of (now : Timestamp) (components : List Component) : Snapshot :=
  { colors := Palette.of components
    typography := Typography.of components
    spacing := SpacingSystem.of components
    patterns := Design.patterns components
    componentCount := components.length
    extractedAt := now }

/-- Named tables as data, each written by `table`. -/
def tablesData (table : List TokenUsage → Data) (tables : List (String × List TokenUsage)) :
    Data :=
  .record (tables.map fun (name, tokens) => (name, table tokens))

/-- A snapshot as data, with its tables written by `table`. -/
def Snapshot.dataWith (table : List TokenUsage → Data) (snapshot : Snapshot) : Data :=
  .record [("colors", snapshot.colors.data),
    ("typography", tablesData table snapshot.typography.tables),
    ("spacing", tablesData table snapshot.spacing.tables),
    ("common_patterns", .list (snapshot.patterns.map Pattern.data)),
    ("component_count", .int snapshot.componentCount),
    ("extracted_at", snapshot.extractedAt.data)]

/-- A snapshot as data; a table is a mapping from values to their counts. -/
def Snapshot.data (snapshot : Snapshot) : Data := snapshot.dataWith tableData

end ComponentAtlas.Design
