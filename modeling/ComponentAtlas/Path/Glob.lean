/-
Module: ComponentAtlas.Path.Glob
Purpose: Wildcard patterns for paths.
Main exports:
  Wildcard, wildcards, starsOnly, follows, followsToEnd, occurs
-/
import ComponentAtlas.Text.Blank

namespace ComponentAtlas.Path

/-- One sign of a pattern. -/
inductive Wildcard where
  /-- Nothing, or any text that ends with a slash. -/
  | folders
  /-- Any text on one line. -/
  | anything
  /-- Any text without a slash. -/
  | within
  /-- Any one character but a slash. -/
  | one
  /-- The character itself. -/
  | char (c : Char)
deriving Repr, DecidableEq

def wildcards : List Char → List Wildcard
  | '*' :: '*' :: '/' :: rest => .folders :: wildcards rest
  | '*' :: '*' :: rest => .anything :: wildcards rest
  | '*' :: rest => .within :: wildcards rest
  | '?' :: rest => .one :: wildcards rest
  | c :: rest => .char c :: wildcards rest
  | [] => []

/-- The signs of an exclude pattern, in which only stars are special. -/
def starsOnly (pattern : List Char) : List Wildcard :=
  pattern.map fun c => if c = '*' then .anything else .char c

/-- After some characters of a class comes an acceptable rest. -/
def afterRun (allowed : Char → Bool) (accept : List Char → Bool) : List Char → Bool
  | [] => accept []
  | c :: rest => accept (c :: rest) || (allowed c && afterRun allowed accept rest)

def onLine (c : Char) : Bool := c ≠ '\n'

def inName (c : Char) : Bool := c ≠ '/'

/-- The rest after a slash is acceptable. -/
def afterSlash (accept : List Char → Bool) : List Char → Bool
  | '/' :: rest => accept rest
  | _ => false

/-- A text follows the signs, up to an acceptable rest. -/
def follows (accept : List Char → Bool) : List Wildcard → List Char → Bool
  | [], text => accept text
  | .folders :: signs, text =>
    follows accept signs text || afterRun onLine (afterSlash (follows accept signs)) text
  | .anything :: signs, text => afterRun onLine (follows accept signs) text
  | .within :: signs, text => afterRun inName (follows accept signs) text
  | .one :: signs, c :: rest => c ≠ '/' && follows accept signs rest
  | .one :: _, [] => false
  | .char d :: signs, c :: rest => c = d && follows accept signs rest
  | .char _ :: _, [] => false

/-- The end of the text, before which a line break may stand. -/
def isEnd (text : List Char) : Bool := text = [] || text = ['\n']

def followsToEnd (signs : List Wildcard) (text : List Char) : Bool := follows isEnd signs text

/-- The signs are followed somewhere in the text. -/
def occurs (signs : List Wildcard) (text : List Char) : Bool :=
  afterRun (fun _ => true) (follows (fun _ => true) signs) text

end ComponentAtlas.Path
