/-
Module: ComponentAtlas.Component.Documentation
Purpose: The description and the usage examples in doc comments.
Main exports:
  docComments, docLines, usageExamples, descriptionOf
-/
import ComponentAtlas.Text.Alphanumeric
import ComponentAtlas.Text.Blank
import ComponentAtlas.Text.Lines
import ComponentAtlas.Text.Search

namespace ComponentAtlas

open ComponentAtlas.Text

/-!
A doc comment starts with a slash and two stars and ends with the next star and
slash.  Its lines may have a gutter: blanks, a star and a space.  A line that
starts with an at sign and a word opens a section.
-/

/-- The text up to a star and slash, and the number of characters through
them. -/
def upToClose? : List Char → Option (List Char × Nat)
  | [] => none
  | '*' :: '/' :: _ => some ([], 2)
  | c :: rest => (upToClose? rest).map fun (text, size) => (c :: text, size + 1)

/-- A doc comment at this place: the text between its marks. -/
def docComment : Recogniser (List Char) := fun _ text =>
  match text with
  | '/' :: '*' :: '*' :: rest => (upToClose? rest).map fun (body, size) => (body, size + 3)
  | _ => none

def docComments (source : List Char) : List (List Char) := (hits docComment source).map (·.2)

/-- A line of a doc comment without its gutter and without trailing blanks. -/
def withoutGutter (line : List Char) : List Char :=
  trimRight <|
    match trimLeft line with
    | '*' :: ' ' :: rest => rest
    | '*' :: rest => rest
    | rest => rest

def docLines (body : List Char) : List (List Char) := (lines body).map withoutGutter

/-- The tag that opens a section: its word and the rest of the line. -/
def tag? (line : List Char) : Option (List Char × List Char) :=
  match trim line with
  | '@' :: rest =>
    if rest.head?.any isWord then
      some (rest.takeWhile isWord, trimLeft (rest.dropWhile isWord))
    else none
  | _ => none

/-- The lines of each example section; `current` holds those of the section that
is open. -/
def exampleSections (current : Option (List (List Char))) :
    List (List Char) → List (List (List Char))
  | [] => current.toList
  | line :: rest =>
    match tag? line with
    | some (word, first) =>
      current.toList ++
        exampleSections (if word = "example".toList then some [first] else none) rest
    | none => exampleSections (current.map (· ++ [line])) rest

def exampleText (part : List (List Char)) : List Char := trim (joinWith ['\n'] part)

/-- The examples in all doc comments of a source, without empty ones. -/
def usageExamples (source : List Char) : List (List Char) :=
  ((docComments source).flatMap fun body =>
    (exampleSections none (docLines body)).map exampleText).filter (!·.isEmpty)

/-- The first line of the first doc comment that is not blank, unless it opens a
section. -/
def descriptionOf (source : List Char) : Option (List Char) := do
  let body ← (docComments source).head?
  let line ← ((docLines body).map trim).find? (!·.isEmpty)
  if line.head? = some '@' then none else some line

end ComponentAtlas
