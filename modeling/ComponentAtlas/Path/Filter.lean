/-
Module: ComponentAtlas.Path.Filter
Purpose: The patterns that say which paths hold components and which are left
  out.
Main exports:
  Filter, Filter.matches, Filter.excludes, globMatches
-/
import ComponentAtlas.Path.Brace
import ComponentAtlas.Path.Glob
import ComponentAtlas.Text.Search

namespace ComponentAtlas.Path

open ComponentAtlas.Text

/-- The patterns of a project. -/
structure Filter where
  component : List (List Char)
  exclude : List (List Char)
deriving Repr

def withSlashes (path : List Char) : List Char := path.map fun c => if c = '\\' then '/' else c

/-- The path without a dot and slash in front, however often they stand there. -/
def withoutDots : List Char → List Char
  | '.' :: '/' :: rest => withoutDots rest
  | path => path

/-- The form of a path that patterns are compared with. -/
def testPath (path : List Char) : List Char := withoutDots (withSlashes path)

/-- The path or the file name follows some expansion of the pattern. -/
def matchesPattern (pattern relative fileName : List Char) : Bool :=
  (expand pattern).any fun expanded =>
    let signs := wildcards expanded
    followsToEnd signs (testPath relative) || followsToEnd signs fileName

def Filter.matches (filter : Filter) (relative fileName : List Char) : Bool :=
  filter.component.any fun pattern => matchesPattern pattern relative fileName

/-- An exclude pattern hits a text: a pattern with stars occurs in it, and so does
one without. -/
def hitsText (pattern text : List Char) : Bool :=
  if pattern.contains '*' then occurs (starsOnly pattern) text else occursIn pattern text

/-- Some exclude pattern hits the file name or the path; empty patterns hit
nothing. -/
def Filter.excludes (filter : Filter) (relative fileName : List Char) : Bool :=
  filter.exclude.any fun pattern =>
    !pattern.isEmpty && (hitsText pattern fileName || hitsText pattern (testPath relative))

def afterLastSlash (text : List Char) : List Char :=
  (text.reverse.takeWhile (· ≠ '/')).reverse

/-- One pattern matches a path, whose file name is its last part unless another
one is given. -/
def globMatches (pattern relative : List Char) (fileName : Option (List Char)) : Bool :=
  matchesPattern pattern relative (fileName.getD (afterLastSlash (testPath relative)))

end ComponentAtlas.Path
