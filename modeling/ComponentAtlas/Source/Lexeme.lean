/-
Module: ComponentAtlas.Source.Lexeme
Purpose: A script as code characters, literals and comments, and the script
  without its comments.
Main exports:
  Lexeme, lexemes, withoutComments
-/
import ComponentAtlas.Source.Enclosure

namespace ComponentAtlas.Source

/-- The smallest piece that the scanners tell apart. -/
inductive Lexeme where
  /-- One character of code outside literals and comments. -/
  | code (c : Char)
  /-- A whole literal with its quotes; an unclosed one has no closing quote. -/
  | literal (text : List Char)
  /-- A whole comment with its marks; a line comment excludes its line break. -/
  | comment (text : List Char)
deriving Repr, DecidableEq

/-- The characters of the lexeme as they stand in the script. -/
def Lexeme.text : Lexeme → List Char
  | .code c => [c]
  | .literal text => text
  | .comment text => text

/-- What remains of the lexeme when comments are removed: a comment leaves its
line breaks behind, so lines keep their numbers. -/
def Lexeme.uncommented : Lexeme → List Char
  | .code c => [c]
  | .literal text => text
  | .comment text => text.filter (· = '\n')

/-- Divide a script into lexemes.  The lexemes put together give the script
back. -/
def lexemes : List Char → List Lexeme
  | [] => []
  | c :: rest =>
    if isQuote c then
      let size := literalLength c rest
      .literal (c :: rest.take size) :: lexemes (rest.drop size)
    else
      match (if c = '/' then commentLength? rest else none) with
      | some size => .comment (c :: rest.take size) :: lexemes (rest.drop size)
      | none => .code c :: lexemes rest
termination_by text => text.length
decreasing_by all_goals simp; try omega

def textOf (parts : List Lexeme) : List Char := parts.flatMap Lexeme.text

/-- The script without its line and block comments, except for the line breaks
inside them. -/
def withoutComments (text : List Char) : List Char :=
  (lexemes text).flatMap Lexeme.uncommented

end ComponentAtlas.Source
