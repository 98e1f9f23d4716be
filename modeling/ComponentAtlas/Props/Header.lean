/-
Module: ComponentAtlas.Props.Header
Purpose: The headers of interfaces and type aliases that declare props.
Main exports:
  interfaceHeader, aliasHeader
-/
import ComponentAtlas.Source.Block

namespace ComponentAtlas.Props

open ComponentAtlas.Text
open ComponentAtlas.Source

/-!
Both headers run from a keyword to the first opening brace behind a name that
ends in `Props`.  So a header is known as soon as the text between the name and
that brace is known to be of the right shape, and no two ways of reading it give
different blocks.
-/

/-- The ending of the names of props declarations. -/
def nameEnding : List Char := "Props".toList

/-- The text after a keyword at the start of a word and at least one blank. -/
def afterKeyword? (keyword : String) (before : Option Char) (text : List Char) :
    Option (List Char) :=
  if startsWord before then
    match after? keyword.toList text with
    | some rest => if rest.head?.any isBlank then some (trimLeft rest) else none
    | none => none
  else none

/-- The text after a name that ends in `Props`. -/
def afterPropsName? (text : List Char) : Option (List Char) :=
  if nameEnding.isSuffixOf (text.takeWhile isWord) then some (text.dropWhile isWord) else none

/-- Some text without closing brace ends in a closing angle with an acceptable
rest behind it. -/
def closesBefore (accept : List Char → Bool) : List Char → Bool
  | [] => false
  | c :: rest => c ≠ '}' && ((c = '>' && accept rest) || closesBefore accept rest)

/-- A list of base types: the word `extends` between blanks and something
behind it. -/
def isExtension (text : List Char) : Bool :=
  text.head?.any isBlank &&
    match after? "extends".toList (trimLeft text) with
    | some (c :: _ :: _) => isBlank c
    | _ => false

def isAncestry (text : List Char) : Bool := isAllBlank text || isExtension text

/-- What may stand between the name of an interface and its opening brace: type
parameters and base types, each of which may be missing. -/
def isInterfaceTail (text : List Char) : Bool :=
  isAncestry text ||
    match trimLeft text with
    | '<' :: inner => closesBefore isAncestry inner
    | _ => false

def isTypeParameters (text : List Char) : Bool :=
  match trim text with
  | [] => true
  | '<' :: rest => rest.getLast? = some '>' && !rest.dropLast.contains '}'
  | _ => false

/-- What may stand between the equals sign of a type alias and its opening brace:
nothing, or other types joined by an ampersand at the end. -/
def isIntersection (text : List Char) : Bool :=
  isAllBlank text ||
    ((trimRight text).getLast? = some '&' &&
      !text.any fun c => c = '}' || c = ';' || c = '=')

/-- What may stand between the name of a type alias and its opening brace. -/
def isAliasTail (text : List Char) : Bool :=
  isTypeParameters (text.takeWhile (· ≠ '=')) &&
    match text.dropWhile (· ≠ '=') with
    | [] => false
    | _ :: rest => isIntersection rest

/-- A header: a keyword, a name, and an acceptable text up to the first opening
brace. -/
def declarationHeader (keyword : String) (isTail : List Char → Bool) : Header :=
  fun before text => do
    let tail ← afterPropsName? (← afterKeyword? keyword before text)
    match tail.dropWhile (· ≠ '{') with
    | [] => none
    | _ :: body =>
      if isTail (tail.takeWhile (· ≠ '{')) then some (text.length - body.length) else none

def interfaceHeader : Header := declarationHeader "interface" isInterfaceTail

/-- The header of a type alias with an object type. -/
def aliasHeader : Header := declarationHeader "type" isAliasTail

end ComponentAtlas.Props
