/-
Module: ComponentAtlas.Category.Rule
Purpose: Rules that vote for a category, and the signals they look at.
Main exports:
  Rule, Weights, Signals, Signals.of, defaultRules
-/
import ComponentAtlas.Component.Basic
import ComponentAtlas.Path.Filter
import ComponentAtlas.Text.LowerCase

namespace ComponentAtlas.Category

open ComponentAtlas.Text

/-!
Scores are computed in floats when the program runs.  Nothing below depends on
that: rules and scores work over any type of numbers, so what they do can also
be said in exact arithmetic.
-/

/-- A rule for one category: pieces of text to look for, and a factor for all that
the rule finds. -/
structure Rule (α : Type) where
  name : String
  pathPatterns : List String := []
  fileNamePatterns : List String := []
  contentPatterns : List String := []
  priority : α
deriving Repr, DecidableEq

/-- What a pattern counts by the place where it was found. -/
structure Weights (α : Type) where
  path : α
  fileName : α
  content : α
  prop : α

def weights {α : Type} [OfScientific α] : Weights α :=
  { path := 3.0, fileName := 2.0, content := 1.0, prop := 0.5 }

/-- What rules look at, all in lower case. -/
structure Signals where
  path : List Char
  fileName : List Char
  componentName : List Char
  /-- The source of the component, when it is known and not empty. -/
  content : Option (List Char)
  /-- Names and types of the props. -/
  props : List (List Char × List Char)

def lowered (text : String) : List Char := lower text.toList

/-- The signals of a component with its source. -/
def Signals.of (component : Component) (content : Option String) : Signals :=
  let path := lowered component.filePath
  { path
    fileName := Path.afterLastSlash path
    componentName := lowered component.name
    content := (content.filter fun text => !text.isEmpty).map lowered
    props := component.props.map fun prop => (lowered prop.name, lowered prop.type) }

/-- The rules that apply when none are given. -/
def defaultRules : List (Rule Float) :=
  [{ name := "auth"
     pathPatterns := ["/auth/", "/authentication/", "/login/", "/signin/"]
     fileNamePatterns := ["login", "signin", "signup", "auth", "register"]
     contentPatterns := ["password", "email", "authenticate", "login", "signin"]
     priority := 10 },
   { name := "forms"
     pathPatterns := ["/forms/", "/form/"]
     fileNamePatterns := ["form", "input", "field", "validation"]
     contentPatterns := ["onSubmit", "validation", "formik", "react-hook-form"]
     priority := 9 },
   { name := "navigation"
     pathPatterns := ["/navigation/", "/nav/", "/menu/"]
     fileNamePatterns := ["nav", "menu", "drawer", "tab", "stack"]
     contentPatterns := ["navigation", "navigate", "router", "route"]
     priority := 8 },
   { name := "ui"
     pathPatterns := ["/ui/", "/components/ui/", "/common/"]
     fileNamePatterns := ["button", "modal", "dialog", "alert", "toast"]
     contentPatterns := ["className", "styled", "theme"]
     priority := 7 },
   { name := "layout"
     pathPatterns := ["/layout/", "/layouts/", "/containers/"]
     fileNamePatterns := ["layout", "container", "wrapper", "header", "footer"]
     contentPatterns := ["flex", "grid", "container", "wrapper"]
     priority := 6 },
   { name := "screens"
     pathPatterns := ["/screens/", "/pages/", "/views/"]
     fileNamePatterns := ["screen", "page", "view"]
     contentPatterns := ["Screen", "Page", "View"]
     priority := 5 },
   { name := "list"
     pathPatterns := ["/list/", "/table/", "/grid/"]
     fileNamePatterns := ["list", "table", "grid", "item", "row"]
     contentPatterns := ["FlatList", "SectionList", "map(", "forEach"]
     priority := 4 },
   { name := "detail"
     pathPatterns := ["/detail/", "/details/", "/profile/"]
     fileNamePatterns := ["detail", "profile", "info", "about"]
     contentPatterns := ["detail", "profile", "information"]
     priority := 3 },
   { name := "overlay"
     pathPatterns := ["/modal/", "/dialog/", "/popup/", "/overlay/"]
     fileNamePatterns := ["modal", "dialog", "popup", "overlay", "sheet"]
     contentPatterns := ["Modal", "Dialog", "Popup", "overlay", "visible"]
     priority := 2 }]

end ComponentAtlas.Category
