/-
Module: ComponentAtlas.Design.Utility
Purpose: Utility classes that stand for a design token.
Main exports:
  utilityColor?, utilityTextSize?, utilityFontWeight?, utilitySpacing?
-/
import ComponentAtlas.Text.Search

namespace ComponentAtlas.Design

open ComponentAtlas.Text

/-!
A utility class may have variants in front, each ended by a colon.  What follows
the last colon is the utility itself.  A line break at the very end is looked
through.
-/

def utility (value : String) : List Char :=
  let core := withoutEnd ['\n'] value.toList
  (core.reverse.takeWhile (· ≠ ':')).reverse

def isOneOf (choices : List String) (text : List Char) : Bool :=
  choices.any fun choice => choice.toList = text

def hues : List String :=
  ["slate", "gray", "zinc", "neutral", "stone", "red", "orange", "amber", "yellow", "lime",
    "green", "emerald", "teal", "cyan", "sky", "blue", "indigo", "violet", "purple", "fuchsia",
    "pink", "rose"]

def shades : List String :=
  ["50", "100", "200", "300", "400", "500", "600", "700", "800", "900", "950"]

/-- A hue and a shade with a hyphen between them. -/
def isShade (text : List Char) : Bool :=
  isOneOf hues (text.takeWhile (· ≠ '-')) && isOneOf shades ((text.dropWhile (· ≠ '-')).drop 1)

/-- The kind and the shade of a color utility. -/
def utilityColor? (value : String) : Option (String × String) :=
  ["bg", "text", "border"].findSome? fun kind =>
    match after? (kind ++ "-").toList (utility value) with
    | some shade => if isShade shade then some (kind, String.ofList shade) else none
    | none => none

def textSizes : List String :=
  ["xs", "sm", "base", "lg", "xl", "2xl", "3xl", "4xl", "5xl", "6xl", "7xl", "8xl", "9xl"]

def fontWeights : List String :=
  ["thin", "extralight", "light", "normal", "medium", "semibold", "bold", "extrabold", "black"]

/-- The name behind a start, when it is one of the given names. -/
def named? (start : String) (choices : List String) (value : String) : Option String :=
  match after? start.toList (utility value) with
  | some name => if isOneOf choices name then some (String.ofList name) else none
  | none => none

def utilityTextSize? (value : String) : Option String := named? "text-" textSizes value

def utilityFontWeight? (value : String) : Option String := named? "font-" fontWeights value

def spacingScale : List String :=
  ["0", "px", "0.5", "1", "1.5", "2", "2.5", "3", "3.5", "4", "5", "6", "7", "8", "9", "10",
    "11", "12", "14", "16", "20", "24", "28", "32", "36", "40", "44", "48", "52", "56", "60",
    "64", "72", "80", "96"]

/-- The kinds of spacing. -/
inductive Spacing where
  | margin
  | padding
  | gap
deriving Repr, DecidableEq

/-- The directions that a margin or padding may have. -/
def directions : List String := ["", "t", "r", "b", "l", "x", "y"]

def spacingNames : List (Spacing × List String) :=
  [(.margin, directions.map ("m" ++ ·)), (.padding, directions.map ("p" ++ ·)),
    (.gap, ["gap", "gap-x", "gap-y"])]

/-- The kind and the step of a spacing utility; a hyphen in front negates it and
changes neither. -/
def utilitySpacing? (value : String) : Option (Spacing × String) :=
  let core := withoutStart ['-'] (utility value)
  let step := (core.reverse.takeWhile (· ≠ '-')).reverse
  let name := core.take (core.length - step.length - 1)
  if step.length < core.length && isOneOf spacingScale step then
    (spacingNames.find? fun entry => isOneOf entry.2 name).map fun entry =>
      (entry.1, String.ofList step)
  else none

end ComponentAtlas.Design
