/-
Module: ComponentAtlas.Props.Extractor
Purpose: Ways to find the props that a script declares.
Main exports:
  Extractor, bySource, byGrammar, Extractor.withFallback
-/
import ComponentAtlas.Props.Members
import ComponentAtlas.Props.SyntaxTree

namespace ComponentAtlas.Props

open ComponentAtlas.Source

/-- A way to find the props in the text of a file. -/
structure Extractor where
  name : String
  extract : (source fileName : String) → Except Fault (List PropDecl)

/-- The props of all interfaces of a script, then those of its type aliases. -/
def sourceProps (source : List Char) : List PropDecl :=
  [interfaceHeader, aliasHeader].flatMap fun header =>
    (blocks header source).flatMap fun block => membersOf block.body

/-- Finds props by the shape of the text alone. -/
def bySource : Extractor :=
  { name := "heuristic", extract := fun source _ => .ok (sourceProps source.toList) }

def byGrammar (grammar : Grammar) : Extractor :=
  { name := "tree_sitter"
    extract := fun source fileName =>
      (grammar.declarations source fileName).map fun found => found.flatMap (·.props) }

/-- Asks the second extractor when the first one fails or finds nothing. -/
def Extractor.withFallback (first second : Extractor) : Extractor :=
  { name := "fallback"
    extract := fun source fileName =>
      match first.extract source fileName with
      | .ok (prop :: rest) => .ok (prop :: rest)
      | _ => second.extract source fileName }

end ComponentAtlas.Props
