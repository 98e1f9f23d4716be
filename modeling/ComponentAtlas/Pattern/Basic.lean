/-
Module: ComponentAtlas.Pattern.Basic
Purpose: Search patterns and the texts in which they occur.
Main exports:
  CharSet, Pattern, Place, Pattern.ends, Search, Search.occursIn
-/
import ComponentAtlas.Text.Alphanumeric
import ComponentAtlas.Text.Blank
import ComponentAtlas.Text.LowerCase

namespace ComponentAtlas

open ComponentAtlas.Text

/-- Characters that belong together. -/
inductive CharClass where
  /-- All characters between two, both included. -/
  | range (first last : Char)
  | word
  | digit
  | blank
deriving Repr, DecidableEq

def CharClass.holds (c : Char) : CharClass → Bool
  | .range first last => first ≤ c && c ≤ last
  | .word => isWord c
  | .digit => (decimalDigit? c).isSome
  | .blank => isBlank c

/-- A part of a set: a class or everything outside it. -/
structure SetItem where
  outside : Bool := false
  charClass : CharClass
deriving Repr, DecidableEq

def SetItem.holds (item : SetItem) (c : Char) : Bool := item.charClass.holds c ≠ item.outside

/-- A set of characters: what is in some part, or what is in none. -/
structure CharSet where
  negated : Bool := false
  items : List SetItem
deriving Repr, DecidableEq

def CharSet.single (c : Char) : CharSet := { items := [{ charClass := .range c c }] }

def CharSet.onLine : CharSet :=
  { negated := true, items := [{ charClass := .range '\n' '\n' }] }

/-- The forms of a character that count, when case may be ignored. -/
def forms (folded : Bool) (c : Char) : List Char := if folded then caseForms c else [c]

/-- Some form of the character belongs to the part. -/
def SetItem.admits (item : SetItem) (folded : Bool) (c : Char) : Bool :=
  (forms folded c).any item.holds

def CharSet.admits (set : CharSet) (folded : Bool) (c : Char) : Bool :=
  (set.items.any fun item => item.admits folded c) ≠ set.negated

/-- A search pattern. -/
inductive Pattern where
  /-- Nothing. -/
  | empty
  /-- One character of a set. -/
  | one (set : CharSet)
  /-- The start of the text. -/
  | start
  /-- The end of the text, or the place before a line break at its end. -/
  | finish
  /-- The very end of the text. -/
  | veryEnd
  /-- A place where a word starts or ends, or a place where none does; an empty text
  has neither. -/
  | boundary (isBoundary : Bool)
  | both (first second : Pattern)
  | either (left right : Pattern)
  /-- The pattern a number of times in a row, without upper limit when `most` is
  missing. -/
  | repeated (body : Pattern) (least : Nat) (most : Option Nat)
deriving Repr, DecidableEq

/-- A place in a text: the character before it and the text from there. -/
structure Place where
  before : Option Char
  rest : List Char
deriving Repr, DecidableEq

def mergePlaces (left right : List Place) : List Place :=
  left ++ right.filter fun place => !left.any fun other => other.rest.length = place.rest.length

/-- All places that a step reaches from some places. -/
def spread (step : Place → List Place) (places : List Place) : List Place :=
  places.foldl (fun found place => mergePlaces found (step place)) []

/-- All places after exactly `count` steps. -/
def stepsExactly (step : Place → List Place) : (count : Nat) → List Place → List Place
  | 0, places => places
  | count + 1, places => stepsExactly step count (spread step places)

/-- All places after at most `count` steps. -/
def stepsUpTo (step : Place → List Place) : (count : Nat) → List Place → List Place
  | 0, places => places
  | count + 1, places => mergePlaces places (stepsUpTo step count (spread step places))

/-- The places that a pattern may reach from a place.  A repetition without limit
needs no more steps than there are characters left. -/
def Pattern.ends (folded : Bool) : Pattern → Place → List Place
  | .empty, place => [place]
  | .one set, place =>
    match place.rest with
    | c :: rest => if set.admits folded c then [{ before := some c, rest }] else []
    | [] => []
  | .start, place => if place.before.isNone then [place] else []
  | .finish, place => if place.rest = [] || place.rest = ['\n'] then [place] else []
  | .veryEnd, place => if place.rest = [] then [place] else []
  | .boundary isBoundary, place =>
    let found := place.before.any isWord ≠ place.rest.head?.any isWord
    let isEmptyText := place.before.isNone && place.rest.isEmpty
    if found = isBoundary && !isEmptyText then [place] else []
  | .both first second, place => spread (second.ends folded) (first.ends folded place)
  | .either left right, place => mergePlaces (left.ends folded place) (right.ends folded place)
  | .repeated body least most, place =>
    let further := match most with
      | some limit => limit - least
      | none => place.rest.length + 1
    stepsUpTo (body.ends folded) further (stepsExactly (body.ends folded) least [place])

/-- A pattern with the choice to ignore case. -/
structure Search where
  pattern : Pattern
  folded : Bool := false
deriving Repr, DecidableEq

/-- The pattern occurs at some place from `before` on. -/
def Search.occursFrom (search : Search) (before : Option Char) (text : List Char) : Bool :=
  !(search.pattern.ends search.folded { before, rest := text }).isEmpty ||
    match text with
    | [] => false
    | c :: rest => search.occursFrom (some c) rest

def Search.occursIn (search : Search) (text : List Char) : Bool := search.occursFrom none text

end ComponentAtlas
