/-
Module: ComponentAtlas.Styles.Sheet
Purpose: The declarations of style sheet objects.
Main exports:
  sheetHeader, keyValue?, shownValue, sheetStyles
-/
import ComponentAtlas.Component.Basic
import ComponentAtlas.Source.Block
import ComponentAtlas.Source.Segment

namespace ComponentAtlas.Styles

open ComponentAtlas.Text
open ComponentAtlas.Source

/-!
A style sheet is the object passed to `StyleSheet.create`.  Its entries are the
blocks, and the entries of a block are its declarations.  Comments are removed
once, from the whole sheet, before it is divided.
-/

/-- The call that creates a style sheet, through the opening brace of its
object. -/
def sheetHeader : Header := fun before text =>
  if startsWord before then
    match after? "StyleSheet.create".toList text with
    | none => none
    | some rest =>
      match trimLeft rest with
      | '(' :: inner =>
        match trimLeft inner with
        | '{' :: body => some (text.length - body.length)
        | _ => none
      | _ => none
  else none

def entrySeparation : Separation := { separators := [','] }

/-- A key in quotes, with neither kind of quote inside, and the rest. -/
def quotedKey? (quote : Char) (rest : List Char) : Option (List Char × List Char) :=
  match rest.takeWhile (!isLineQuote ·), rest.dropWhile (!isLineQuote ·) with
  | [], _ => none
  | _, [] => none
  | key, c :: after => if c = quote then some (key, after) else none

/-- The first character of a key without quotes. -/
def startsKey (c : Char) : Bool := c.isAlpha || c = '_' || c = '$'

/-- The further characters of a key without quotes. -/
def continuesKey (c : Char) : Bool := isWord c || c = '$' || c = '-'

/-- The key in front of a text, and the rest. -/
def key? (text : List Char) : Option (List Char × List Char) :=
  match text with
  | [] => none
  | c :: rest =>
    if isLineQuote c then quotedKey? c rest
    else if startsKey c then
      some (c :: rest.takeWhile continuesKey, rest.dropWhile continuesKey)
    else none

/-- The key and the value of an object entry; the value is not blank. -/
def keyValue? (entry : List Char) : Option (List Char × List Char) := do
  let (key, afterKey) ← key? (trim entry)
  match trimLeft afterKey with
  | ':' :: rest =>
    let value := trimLeft rest
    if value.isEmpty then none else some (key, value)
  | _ => none

/-- The entries of an object from the text between its braces. -/
def entries (body : List Char) : List (List Char × List Char) :=
  (segments entrySeparation body).filterMap fun segment => keyValue? segment.text

/-- The inside of a literal without quotes in it, when the text is one. -/
def scalar? (text : List Char) : Option (List Char) :=
  match text with
  | [] => none
  | quote :: rest =>
    if isQuote quote && rest.getLast? = some quote && !rest.dropLast.any isQuote then
      some rest.dropLast
    else none

/-- A value on one line, and without quotes when it is a plain literal. -/
def shownValue (value : List Char) : List Char :=
  let line := trim (dropRightWhile (fun c => c = ',' || c = ';') (collapse value))
  (scalar? line).getD line

/-- The text between the braces of a block; `none` for what is no object. -/
def objectBody? (value : List Char) : Option (List Char) :=
  match trim value with
  | '{' :: rest => some (groupBody rest)
  | _ => none

/-- The blocks of a sheet, each with its name and the text between its braces. -/
def namedBlocks (body : List Char) : List (List Char × List Char) :=
  (entries body).filterMap fun (name, value) => (objectBody? value).map (name, ·)

def sheetStyle (block key value : List Char) : StyleDecl :=
  { property := String.ofList key
    value := String.ofList (shownValue value)
    context := "style"
    name := some (String.ofList block) }

/-- The declarations of a sheet without comments. -/
def sheetBodyStyles (body : List Char) : List StyleDecl :=
  (namedBlocks body).flatMap fun (name, block) =>
    (entries block).map fun (key, value) => sheetStyle name key value

/-- The declarations of all style sheets of a script. -/
def sheetStyles (source : List Char) : List StyleDecl :=
  (blocks sheetHeader source).flatMap fun block => sheetBodyStyles (withoutComments block.body)

end ComponentAtlas.Styles
