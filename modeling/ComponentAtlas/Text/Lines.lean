/-
Module: ComponentAtlas.Text.Lines
Purpose: The lines of a text.
Main exports:
  isLineBreak, lines, withLineFeeds
-/

namespace ComponentAtlas.Text

/-- Any character that ends a line: line feed, vertical tab, form feed, carriage
return, the file, group and record separators, next line, and the line and
paragraph separators. -/
def isLineBreak (c : Char) : Bool :=
  let code := c.toNat
  (10 ≤ code && code ≤ 13) || (28 ≤ code && code ≤ 30) || code = 0x85 ||
    code = 0x2028 || code = 0x2029

/-- Put a character in front of the first line. -/
def consLine (c : Char) : List (List Char) → List (List Char)
  | [] => [[c]]
  | line :: rest => (c :: line) :: rest

/-- The lines of a text without their ends.  A carriage return followed by a
line feed is one end, and an end at the very end opens no further line. -/
def lines : List Char → List (List Char)
  | [] => []
  | '\r' :: '\n' :: rest => [] :: lines rest
  | c :: rest => if isLineBreak c then [] :: lines rest else consLine c (lines rest)

/-- The text with a line feed for each carriage return, and one for each carriage
return that is followed by a line feed. -/
def withLineFeeds : List Char → List Char
  | [] => []
  | '\r' :: '\n' :: rest => '\n' :: withLineFeeds rest
  | c :: rest => (if c = '\r' then '\n' else c) :: withLineFeeds rest

end ComponentAtlas.Text
