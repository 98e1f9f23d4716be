/-
Module: ComponentAtlas.Text.Blank
Purpose: Blanks, trimming, words, and the division of a text at a separator.
Main exports:
  isBlank, trim, trimRight, splitWhere, words, collapse, joinWith
-/

namespace ComponentAtlas.Text

/-!
A blank is any character with the Unicode property of white space, together
with the four information separators (28 to 31).  Trimming, words and the
patterns of the scanners all use this one class.
-/

/-- White space of Unicode 14 together with the information separators. -/
def isBlank (c : Char) : Bool :=
  let code := c.toNat
  (9 ≤ code && code ≤ 13) || (28 ≤ code && code ≤ 32) || code = 0x85 ||
    code = 0xA0 || code = 0x1680 || (0x2000 ≤ code && code ≤ 0x200A) ||
    code = 0x2028 || code = 0x2029 || code = 0x202F || code = 0x205F ||
    code = 0x3000

/-- Every character that the core library calls white space is a blank. -/
theorem isBlank_of_isWhitespace {c : Char} (h : c.isWhitespace = true) :
    isBlank c = true := by
  simp only [Char.isWhitespace, Bool.or_eq_true, decide_eq_true_eq] at h
  rcases h with ((rfl | rfl) | rfl) | rfl <;> rfl

/-- Remove the characters of a class from the right end. -/
def dropRightWhile (p : Char → Bool) (text : List Char) : List Char :=
  (text.reverse.dropWhile p).reverse

def trimLeft (text : List Char) : List Char := text.dropWhile isBlank

def trimRight (text : List Char) : List Char := dropRightWhile isBlank text

def trim (text : List Char) : List Char := trimRight (trimLeft text)

/-- Remove the characters of a class from both ends. -/
def trimWhile (p : Char → Bool) (text : List Char) : List Char :=
  dropRightWhile p (text.dropWhile p)

def isAllBlank (text : List Char) : Bool := text.all isBlank

/-- The pieces of a text between the characters of a class.  There is one piece
more than there are such characters. -/
def splitWhere (p : Char → Bool) : List Char → List (List Char)
  | [] => [[]]
  | c :: rest =>
    if p c then [] :: splitWhere p rest
    else
      match splitWhere p rest with
      | [] => [[c]]
      | piece :: pieces => (c :: piece) :: pieces

/-- The maximal runs of characters that are not blank. -/
def words (text : List Char) : List (List Char) :=
  (splitWhere isBlank text).filter (!·.isEmpty)

/-- The pieces one after the other, with `separator` between neighbours. -/
def joinWith (separator : List Char) : List (List Char) → List Char
  | [] => []
  | [piece] => piece
  | piece :: pieces => piece ++ separator ++ joinWith separator pieces

/-- The words of the text with one space between neighbours. -/
def collapse (text : List Char) : List Char := joinWith [' '] (words text)

end ComponentAtlas.Text
