/-
Module: ComponentAtlas.Design.Measure
Purpose: The typography and the spacing that styles use.
Main exports:
  FontAspect, fontUses, spacingUses, Typography, SpacingSystem
-/
import ComponentAtlas.Design.Color

namespace ComponentAtlas.Design

open ComponentAtlas.Text

/-- What a style says about text. -/
inductive FontAspect where
  | size
  | weight
  | family
  | lineHeight
deriving Repr, DecidableEq

/-- The aspect that a property sets; of several named in it the first counts. -/
def aspectOf? (property : String) : Option FontAspect :=
  let name := lower property.toList
  if mentions ["fontsize", "font-size"] name then some .size
  else if mentions ["fontweight", "font-weight"] name then some .weight
  else if mentions ["fontfamily", "font-family"] name then some .family
  else if mentions ["lineheight", "line-height"] name then some .lineHeight
  else none

/-- The values of text aspects that a style uses. -/
def fontUses (style : StyleDecl) : List (FontAspect × String) :=
  ((aspectOf? style.property).map fun aspect => (aspect, style.value)).toList ++
    if isUtility style then
      ((utilityTextSize? style.value).map fun size => (FontAspect.size, size)).toList ++
        ((utilityFontWeight? style.value).map fun weight => (FontAspect.weight, weight)).toList
    else []

/-- The kind of spacing that a property sets; of several named in it the first
counts. -/
def spacingOf? (property : String) : Option Spacing :=
  let name := lower property.toList
  if mentions ["margin"] name then some .margin
  else if mentions ["padding"] name then some .padding
  else if mentions ["gap"] name then some .gap
  else none

def spacingUses (style : StyleDecl) : List (Spacing × String) :=
  ((spacingOf? style.property).map fun kind => (kind, style.value)).toList ++
    if isUtility style then (utilitySpacing? style.value).toList else []

/-- The table of all values that the styles use in one way. -/
def tableOf {κ : Type} [DecidableEq κ] (uses : StyleDecl → List (κ × String)) (kind : κ)
    (components : List Component) : List TokenUsage :=
  tokenUsages <| (stylesIn components).flatMap fun style =>
    (uses style).filterMap fun use => if use.1 = kind then some use.2 else none

/-- The typography of a set of components. -/
structure Typography where
  fontSizes : List TokenUsage
  fontWeights : List TokenUsage
  lineHeights : List TokenUsage
  fontFamilies : List TokenUsage
deriving Repr, DecidableEq

def Typography.of (components : List Component) : Typography :=
  { fontSizes := tableOf fontUses .size components
    fontWeights := tableOf fontUses .weight components
    lineHeights := tableOf fontUses .lineHeight components
    fontFamilies := tableOf fontUses .family components }

def Typography.tables (typography : Typography) : List (String × List TokenUsage) :=
  [("font_sizes", typography.fontSizes), ("font_weights", typography.fontWeights),
    ("line_heights", typography.lineHeights), ("font_families", typography.fontFamilies)]

/-- The spacing of a set of components. -/
structure SpacingSystem where
  margins : List TokenUsage
  paddings : List TokenUsage
  gaps : List TokenUsage
deriving Repr, DecidableEq

def SpacingSystem.of (components : List Component) : SpacingSystem :=
  { margins := tableOf spacingUses .margin components
    paddings := tableOf spacingUses .padding components
    gaps := tableOf spacingUses .gap components }

def SpacingSystem.tables (spacing : SpacingSystem) : List (String × List TokenUsage) :=
  [("margins", spacing.margins), ("paddings", spacing.paddings), ("gaps", spacing.gaps)]

end ComponentAtlas.Design
