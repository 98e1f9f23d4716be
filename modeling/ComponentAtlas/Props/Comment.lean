/-
Module: ComponentAtlas.Props.Comment
Purpose: Comments that describe props.
Main exports:
  comments, commentText
-/
import ComponentAtlas.Text.Blank
import ComponentAtlas.Text.Lines
import ComponentAtlas.Text.Search

namespace ComponentAtlas.Props

open ComponentAtlas.Text

/-- The number of characters through the first `*/`. -/
def throughClose? : List Char → Option Nat
  | [] => none
  | '*' :: '/' :: _ => some 2
  | _ :: rest => (throughClose? rest).map (· + 1)

/-- A comment at this place, whatever surrounds it: a closed block comment, or a
line comment without its line break. -/
def commentHere : Recogniser (List Char) := fun _ text =>
  let size? : Option Nat :=
    match text with
    | '/' :: '*' :: rest => (throughClose? rest).map (· + 2)
    | '/' :: '/' :: rest => some ((rest.takeWhile (· ≠ '\n')).length + 2)
    | _ => none
  size?.map fun size => (text.take size, size)

/-- All comments of a text, also those that look like one inside a literal. -/
def comments (text : List Char) : List (List Char) := (hits commentHere text).map (·.2)

def withoutMarks (comment : List Char) : List Char :=
  match trim comment with
  | '/' :: '/' :: rest => rest
  | body => withoutEnd "*/".toList (withoutStart "/*".toList (withoutStart "/**".toList body))

/-- A line without blanks and without the stars in front of it. -/
def commentLine (line : List Char) : List Char := trim ((trim line).dropWhile (· = '*'))

/-- The words of a comment on one line; nothing when there are none. -/
def commentText (comment : List Char) : Option (List Char) :=
  let found := ((lines (withoutMarks comment)).map commentLine).filter (!·.isEmpty)
  if found.isEmpty then none else some (joinWith [' '] found)

end ComponentAtlas.Props
