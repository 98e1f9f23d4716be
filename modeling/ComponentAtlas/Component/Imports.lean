/-
Module: ComponentAtlas.Component.Imports
Purpose: The modules of other packages that a source imports.
Main exports:
  importForms, dependencies
-/
import ComponentAtlas.Source.Lexeme
import ComponentAtlas.Text.Alphanumeric
import ComponentAtlas.Text.Blank
import ComponentAtlas.Text.Search

namespace ComponentAtlas

open ComponentAtlas.Text

def isModuleQuote (c : Char) : Bool := c = '"' || c = '\''

def isModuleChar (c : Char) : Bool := !isModuleQuote c && c ≠ '\n'

/-- A module name in quotes after optional blanks, and the rest. -/
def moduleName? (text : List Char) : Option (List Char × List Char) :=
  match trimLeft text with
  | [] => none
  | quote :: rest =>
    if isModuleQuote quote then
      match rest.takeWhile isModuleChar, rest.dropWhile isModuleChar with
      | [], _ => none
      | _, [] => none
      | name, close :: after => if isModuleQuote close then some (name, after) else none
    else none

/-- A module name between parentheses after optional blanks, and the rest. -/
def moduleCall? (text : List Char) : Option (List Char × List Char) := do
  match trimLeft text with
  | '(' :: inner =>
    let (name, rest) ← moduleName? inner
    match trimLeft rest with
    | ')' :: after => some (name, after)
    | _ => none
  | _ => none

/-- A character of the clause between the keyword and `from`. -/
def isClauseChar (c : Char) : Bool :=
  isWord c || isBlank c || ['$', '*', '{', '}', ','].contains c

/-- The first `from` with a module name behind it, with only characters of a
clause before it. -/
def fromClause? (before : Option Char) : List Char → Option (List Char × List Char)
  | [] => none
  | c :: rest =>
    let here :=
      if startsWord before then (after? "from".toList (c :: rest)).bind moduleName? else none
    match here with
    | some found => some found
    | none => if isClauseChar c then fromClause? (some c) rest else none

/-- The clause of an import or export behind its keyword. -/
def clause? (rest : List Char) : Option (List Char × List Char) :=
  match rest with
  | c :: more => if isBlank c then fromClause? (some c) more else none
  | [] => none

/-- A form of import: keywords, and how the module name follows one. -/
structure ImportForm where
  keywords : List String
  source? : List Char → Option (List Char × List Char)

/-- A module name in the form, at this place. -/
def ImportForm.here (form : ImportForm) : Recogniser (List Char) := fun before text =>
  if startsWord before then
    (form.keywords.findSome? fun keyword =>
      (after? keyword.toList text).bind form.source?).map fun (name, rest) =>
        (name, text.length - rest.length)
  else none

/-- The forms of import: from a module, of a module alone, and by a call. -/
def importForms : List ImportForm :=
  [{ keywords := ["import", "export"], source? := clause? },
    { keywords := ["import"], source? := moduleName? },
    { keywords := ["import"], source? := moduleCall? },
    { keywords := ["require"], source? := moduleCall? }]

/-- All imported modules with their places, in the order of their places. -/
def importsIn (code : List Char) : List (Nat × List Char) :=
  (importForms.flatMap fun form => hits form.here code).mergeSort fun a b => a.1 ≤ b.1

def isExternal (name : List Char) : Bool := name.head? ≠ some '.' && name.head? ≠ some '/'

/-- The elements of a list, each at its first occurrence only. -/
def distinct {α : Type} [DecidableEq α] (items : List α) : List α :=
  items.foldl (fun kept item => if item ∈ kept then kept else kept ++ [item]) []

/-- The modules of other packages that a source imports outside comments, each
once, in the order of their first import. -/
def dependencies (source : List Char) : List (List Char) :=
  distinct (((importsIn (Source.withoutComments source)).map (·.2)).filter isExternal)

end ComponentAtlas
