/-
Module: ComponentAtlas.Styles.Extraction
Purpose: The style declarations of a script, by framework.
Main exports:
  stylesOf
-/
import ComponentAtlas.Styles.ClassAttribute
import ComponentAtlas.Styles.Sheet

namespace ComponentAtlas.Styles

/-- Style sheets count in one framework and class attributes in the other; in any
other framework nothing counts. -/
def stylesOf (framework source : String) : List StyleDecl :=
  if framework = reactNative then sheetStyles source.toList
  else if framework = tailwind then classStyles source.toList
  else []

end ComponentAtlas.Styles
