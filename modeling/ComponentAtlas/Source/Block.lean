/-
Module: ComponentAtlas.Source.Block
Purpose: Brace blocks introduced by a header, and the headers of the
  declarations that the library looks for.
Main exports:
  Block, blocks, Header, afterKeyword
-/
import ComponentAtlas.Source.Enclosure
import ComponentAtlas.Text.Alphanumeric
import ComponentAtlas.Text.Blank
import ComponentAtlas.Text.Search

namespace ComponentAtlas.Source

open ComponentAtlas.Text

/-- A header tells how many characters it takes at a place of a script; its last
character is the opening brace of the block. -/
abbrev Header := Option Char → List Char → Option Nat

/-- A block of a script. -/
structure Block where
  /-- Index of the first character of the header. -/
  start : Nat
  /-- The header through its last character. -/
  header : List Char
  /-- The text between the braces, or to the end of the script when the block
  is never closed. -/
  body : List Char
deriving Repr, DecidableEq

/-- The header together with what follows it. -/
def Header.hit (header : Header) : Recogniser (List Char × List Char) :=
  fun before text =>
    (header before text).map fun size => ((text.take size, text.drop size), size)

/-- Every block that the header introduces, in order.  A header that does not end
with an opening brace introduces none. -/
def blocks (header : Header) (text : List Char) : List Block :=
  (hits header.hit text).filterMap fun (start, taken, rest) =>
    if taken.getLast? = some '{' then
      some { start := start, header := taken, body := groupBody rest }
    else none

/-- The header of a keyword at the start of a word, one space, and any one
character. -/
def afterKeyword (keyword : String) : Header := fun before text =>
  if startsWord before then
    match after? (keyword.toList ++ [' ']) text with
    | some (_ :: _) => some (keyword.length + 2)
    | _ => none
  else none

end ComponentAtlas.Source
