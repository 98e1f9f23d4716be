/-
Module: ComponentAtlas.Component.Naming
Purpose: The name of a component and its category as far as the path tells.
Main exports:
  nameOfPath, categoryOfPath
-/
import ComponentAtlas.Component.Basic
import ComponentAtlas.Path.Basic
import ComponentAtlas.Path.Filter
import ComponentAtlas.Text.LowerCase

namespace ComponentAtlas

open ComponentAtlas.Text

/-- Endings that say what a file holds and do not belong to the name. -/
def roleEndings : List String := ["Component", "Screen", "Page"]

/-- A name without the ending that says what the file holds; a line break at the
very end is looked through. -/
def withoutRole (stem : List Char) : List Char :=
  let (core, finish) := if stem.getLast? = some '\n' then (stem.dropLast, ['\n']) else (stem, [])
  match roleEndings.findSome? fun ending => before? ending.toList core with
  | some rest => rest ++ finish
  | none => stem

/-- The name of the component in a file: the file name without extension and role
ending, unless nothing would be left. -/
def nameOfPath (path : String) : String :=
  let stem := (Path.ofText path).stem
  let name := withoutRole stem
  String.ofList (if name.isEmpty then stem else name)

def directoryCategories : List (String × List String) :=
  [("auth", ["/auth/", "/authentication/"]), ("forms", ["/forms/", "/form/"]),
    ("ui", ["/ui/", "/components/ui/"]), ("layout", ["/layout/", "/layouts/"]),
    ("screens", ["/screens/", "/pages/"])]

/-- Parts of file names that tell a category. -/
def fileNameCategories : List (String × List String) :=
  [("auth", ["login", "signin", "auth"]), ("forms", ["button", "input", "form"]),
    ("list", ["list", "table", "grid"]), ("detail", ["detail", "info", "profile"]),
    ("overlay", ["modal", "dialog", "popup"]), ("layout", ["header", "footer", "nav"])]

/-- The first category of a table one of whose words occurs in the text. -/
def categoryIn? (table : List (String × List String)) (text : List Char) : Option String :=
  (table.find? fun entry => entry.2.any fun word => occursIn word.toList text).map (·.1)

/-- The category of a component by its path alone: its directories come before its
file name. -/
def categoryOfPath (path : String) : String :=
  let text := lower path.toList
  ((categoryIn? directoryCategories text).or
    (categoryIn? fileNameCategories (Path.afterLastSlash text))).getD generalCategory

end ComponentAtlas
