/-
Module: ComponentAtlas.Styles.ClassAttribute
Purpose: The utility classes in class attributes.
Main exports:
  classAttribute, withoutInterpolations, literals, literalText, classValues,
  classStyles
-/
import ComponentAtlas.Component.Basic
import ComponentAtlas.Source.Enclosure
import ComponentAtlas.Text.Alphanumeric
import ComponentAtlas.Text.Blank
import ComponentAtlas.Text.Search

namespace ComponentAtlas.Styles

open ComponentAtlas.Text
open ComponentAtlas.Source

/-!
A class attribute has a literal or an expression in braces as its value.  From a
literal counts what stands between its quotes, from an expression the literals
in it, and interpolations of template literals count as blanks.
-/

/-- The character can not stand before the name of an attribute. -/
def joinsAttribute (c : Char) : Bool := isWord c || c = '-'

/-- The name of a class attribute and its equals sign; the value is the text
behind them. -/
def classAttribute : Recogniser (List Char) := fun before text =>
  if before.any joinsAttribute then none
  else
    (["className", "class"].findSome? fun name => after? name.toList text >>= fun rest =>
      match trimLeft rest with
      | '=' :: value => some (trimLeft value)
      | _ => none).map fun value => (value, text.length - value.length)

/-- A template without its interpolations, each of which leaves a space.  One that
is never closed takes the rest of the template with it. -/
def withoutInterpolations : List Char → List Char
  | [] => []
  | '$' :: '{' :: rest =>
    match groupLength? rest with
    | none => []
    | some size => ' ' :: withoutInterpolations (rest.drop (size + 1))
  | c :: rest => c :: withoutInterpolations rest
termination_by text => text.length
decreasing_by all_goals simp; try omega

/-- The literals of an expression, with their quotes. -/
def literals : List Char → List (List Char)
  | [] => []
  | c :: rest =>
    if isQuote c then
      let size := literalLength c rest
      (c :: rest.take size) :: literals (rest.drop size)
    else literals rest
termination_by text => text.length
decreasing_by all_goals simp; try omega

/-- What a literal says: the text between its quotes, without interpolations when
it is a template. -/
def literalText (literal : List Char) : List Char :=
  match literal with
  | [] => []
  | quote :: rest =>
    let body := if rest.getLast? = some quote then rest.dropLast else rest
    if quote = '`' then withoutInterpolations body else body

/-- The text of an attribute value; `none` for what is neither a literal nor an
expression with literals. -/
def valueText? (value : List Char) : Option (List Char) :=
  match value with
  | [] => none
  | c :: rest =>
    if isQuote c then some (literalText (c :: rest.take (literalLength c rest)))
    else if c = '{' then
      match literals (groupBody rest) with
      | [] => none
      | found => some (joinWith [' '] (found.map literalText))
    else none

/-- The texts of all class attributes of a script. -/
def classValues (source : List Char) : List (List Char) :=
  (hits classAttribute source).filterMap fun hit => valueText? hit.2

def classStyle (token : List Char) : StyleDecl :=
  { property := "className", value := String.ofList token, context := "className" }

def classStyles (source : List Char) : List StyleDecl :=
  (classValues source).flatMap fun value => (words value).map classStyle

end ComponentAtlas.Styles
