/-
Module: ComponentAtlas.Design.Color
Purpose: The colors that styles use, by the role of the property.
Main exports:
  ColorRole, colorLiterals, colorsIn, Palette, Palette.of
-/
import ComponentAtlas.Component.Basic
import ComponentAtlas.Design.Token
import ComponentAtlas.Design.Utility
import ComponentAtlas.Text.Alphanumeric
import ComponentAtlas.Text.LowerCase

namespace ComponentAtlas.Design

open ComponentAtlas.Text

/-- What a color is used for. -/
inductive ColorRole where
  | background
  | text
  | border
  | accent
deriving Repr, DecidableEq

def isHexDigit (c : Char) : Bool :=
  c.isDigit || ('a' ≤ c && c ≤ 'f') || ('A' ≤ c && c ≤ 'F')

def hexLengths : List Nat := [3, 4, 6, 8]

/-- The length of a hexadecimal color behind its number sign: a whole word of
digits. -/
def hexLength? (rest : List Char) : Option Nat :=
  let word := rest.takeWhile isWord
  if word.all isHexDigit && hexLengths.contains word.length then some word.length else none

/-- The functions that make a color; longer names come before their starts. -/
def colorFunctions : List String := ["rgba(", "rgb(", "hsla(", "hsl("]

/-- The length of a color function with its arguments. -/
def callLength? (text : List Char) : Option Nat :=
  colorFunctions.findSome? fun name => do
    let arguments ← after? name.toList text
    let inner := arguments.takeWhile (· ≠ ')')
    if inner.isEmpty || inner.length = arguments.length then none
    else some (name.length + inner.length + 1)

def colorHere : Recogniser (List Char) := fun _ text =>
  let size? : Option Nat :=
    match text with
    | '#' :: rest => (hexLength? rest).map (· + 1)
    | _ => callLength? text
  size?.map fun size => (text.take size, size)

def colorLiterals (value : List Char) : List (List Char) := (hits colorHere value).map (·.2)

def mentions (choices : List String) (text : List Char) : Bool :=
  choices.any fun choice => occursIn choice.toList text

def roleOf (property : String) : ColorRole :=
  let name := lower property.toList
  if mentions ["background", "bg"] name then .background
  else if mentions ["color", "text"] name then .text
  else if mentions ["border"] name then .border
  else .accent

def utilityRole (kind : String) : ColorRole :=
  if kind = "bg" then .background else if kind = "text" then .text else .border

def isUtility (style : StyleDecl) : Bool := style.context = "className"

/-- The colors that a style uses, with their roles. -/
def colorsIn (style : StyleDecl) : List (ColorRole × String) :=
  (colorLiterals style.value.toList).map (fun color => (roleOf style.property, String.ofList color)) ++
    if isUtility style then
      ((utilityColor? style.value).map fun (kind, color) => (utilityRole kind, color)).toList
    else []

def stylesIn (components : List Component) : List StyleDecl := components.flatMap (·.styles)

/-- The uses of colors in one role: each color with the property that used it. -/
def usesOf (role : ColorRole) (components : List Component) : List (String × String) :=
  (stylesIn components).flatMap fun style =>
    (colorsIn style).filterMap fun use =>
      if use.1 = role then some (use.2, style.property) else none

/-- The colors of a set of components by role. -/
structure Palette where
  background : List ColorToken
  text : List ColorToken
  border : List ColorToken
  accent : List ColorToken
deriving Repr, DecidableEq

def Palette.of (components : List Component) : Palette :=
  { background := colorTokens (usesOf .background components)
    text := colorTokens (usesOf .text components)
    border := colorTokens (usesOf .border components)
    accent := colorTokens (usesOf .accent components) }

/-- The colors that carry a meaning of their own; they do not depend on the
components. -/
def semanticColors : List (String × List String) :=
  [("success", ["#10B981", "green-500"]), ("warning", ["#F59E0B", "yellow-500"]),
    ("error", ["#EF4444", "red-500"]), ("info", ["#3B82F6", "blue-500"])]

def semanticData : Data :=
  .record (semanticColors.map fun (name, values) =>
    (name, .list (values.map fun value =>
      ColorToken.data { value, usage := 1, contexts := ["default"] })))

def Palette.data (palette : Palette) : Data :=
  .record [("background", .list (palette.background.map ColorToken.data)),
    ("text", .list (palette.text.map ColorToken.data)),
    ("border", .list (palette.border.map ColorToken.data)),
    ("accent", .list (palette.accent.map ColorToken.data)), ("semantic", semanticData)]

end ComponentAtlas.Design
