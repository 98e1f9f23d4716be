/-
Module: ComponentAtlas.Similarity.EditDistance
Purpose: The edit distance of two texts.
Main exports:
  nextRow, rowDistance, editDistance
-/

namespace ComponentAtlas.Similarity

/-!
The distance is computed row by row.  The row of a text `a` holds, for every start
of a text `b`, the distance between `a` and that start.  The row after one more
character follows from the row before it, because the last step of an edit is a
deletion, an insertion or the pairing of two last characters.
-/

/-- The rest of the row after one more character `c`: `left` is the entry before
it in the new row, and `corner` the one above that. -/
def rowRest (c : Char) (left corner : Nat) : List Nat → List Char → List Nat
  | up :: ups, d :: rest =>
    let entry := min (min (left + 1) (up + 1)) (corner + if c = d then 0 else 1)
    entry :: rowRest c entry up ups rest
  | _, _ => []

def nextRow (text : List Char) (row : List Nat) (c : Char) : List Nat :=
  match row with
  | first :: ups => (first + 1) :: rowRest c (first + 1) first ups text
  | [] => []

/-- The row of the empty text: every start is reached by insertions alone. -/
def firstRow (text : List Char) : List Nat := List.range (text.length + 1)

/-- The last entry of the last row, with a row for every start of the first text. -/
def rowDistance (left right : List Char) : Nat :=
  ((left.foldl (nextRow right) (firstRow right)).getLast?).getD 0

/-- The least number of insertions, deletions and substitutions of a character
that turn one text into the other.  The rows run along the shorter text. -/
def editDistance (left right : List Char) : Nat :=
  if left.length < right.length then rowDistance right left else rowDistance left right

end ComponentAtlas.Similarity
