/-
Module: ComponentAtlas.Source.Segment
Purpose: Division of a script at separators outside brackets, literals and
  comments.
Main exports:
  Separation, Segment, segments
-/
import ComponentAtlas.Source.Lexeme
import ComponentAtlas.Text.Alphanumeric
import ComponentAtlas.Text.Blank

namespace ComponentAtlas.Source

/-- How a script is divided: the separators, and whether type argument lists
nest like brackets. -/
structure Separation where
  separators : List Char
  typeArguments : Bool := false
deriving Repr

/-- How deep a place of the script lies, and the character before it. -/
structure Nesting where
  /-- Open brackets; a closing bracket without partner is ignored. -/
  brackets : Nat := 0
  /-- Open type argument lists. -/
  angles : Nat := 0
  previous : Option Char := none
deriving Repr, DecidableEq

/-- A type argument list opens only right after an identifier or a dot. -/
def opensTypeArguments (previous : Option Char) : Bool :=
  previous.any fun c => Text.isAlphanumeric c || c = '_' || c = '$' || c = '.'

/-- The effect of a code character on the nesting; `none` when the character is
a separator at the top level. -/
def Nesting.afterCode? (style : Separation) (nesting : Nesting) (c : Char) :
    Option Nesting :=
  let next := { nesting with previous := some c }
  if isOpener c then some { next with brackets := nesting.brackets + 1 }
  else if isCloser c then some { next with brackets := nesting.brackets - 1 }
  else if style.typeArguments && c = '<' && opensTypeArguments nesting.previous then
    some { next with angles := nesting.angles + 1 }
  -- The angle of an arrow closes nothing.
  else if style.typeArguments && c = '>' && nesting.angles > 0 &&
      nesting.previous ≠ some '=' then
    some { next with angles := nesting.angles - 1 }
  else if nesting.brackets = 0 && nesting.angles = 0 && style.separators.contains c then
    none
  else some next

/-- The effect of a lexeme on the nesting: the separator at which the script is
cut there, or the nesting after it. -/
def Nesting.after (style : Separation) (nesting : Nesting) : Lexeme → Except Char Nesting
  | .code c =>
    match nesting.afterCode? style c with
    | some next => .ok next
    | none => .error c
  | .literal text => .ok { nesting with previous := text.getLast? }
  | .comment text => .ok { nesting with previous := text.getLast? }

/-- The lexemes of one segment and the separator that ended it. -/
structure Cut where
  parts : List Lexeme
  separator : Option Char
deriving Repr, DecidableEq

def consCut (part : Lexeme) : List Cut → List Cut
  | [] => [{ parts := [part], separator := none }]
  | cut :: rest => { cut with parts := part :: cut.parts } :: rest

/-- Divide lexemes at the top-level separators.  The last cut has no
separator. -/
def cuts (style : Separation) (nesting : Nesting) : List Lexeme → List Cut
  | [] => [{ parts := [], separator := none }]
  | part :: rest =>
    match nesting.after style part with
    | .error separator =>
      { parts := [], separator := some separator } ::
        cuts style { nesting with previous := some separator } rest
    | .ok next => consCut part (cuts style next rest)

/-- A piece of a script and the separator that ended it; the last piece has
none. -/
structure Segment where
  text : List Char
  separator : Option Char
deriving Repr, DecidableEq

def Cut.segment (cut : Cut) : Segment :=
  { text := textOf cut.parts, separator := cut.separator }

/-- A segment that is kept: only the unended last one may be left out, when it
is blank. -/
def Segment.isKept (segment : Segment) : Bool :=
  segment.separator.isSome || !Text.isAllBlank segment.text

/-- The segments of a script at top-level separators.  A blank rest after the
last separator is no segment. -/
def segments (style : Separation) (text : List Char) : List Segment :=
  ((cuts style {} (lexemes text)).map Cut.segment).filter Segment.isKept

end ComponentAtlas.Source
