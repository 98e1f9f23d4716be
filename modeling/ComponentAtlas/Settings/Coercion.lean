/-
Module: ComponentAtlas.Settings.Coercion
Purpose: Settings from their written form, with defaults for what is missing or
  of the wrong type.
Main exports:
  asText?, asTexts, asBool?, asInt?, asFloat?, Settings.ofEntries
-/
import ComponentAtlas.Decimal.Reading
import ComponentAtlas.Fault
import ComponentAtlas.Settings.Basic

namespace ComponentAtlas.Settings

open ComponentAtlas.Text
open ComponentAtlas.Decimal

/-!
A written value of the wrong type is turned into the right one where that is
plain: numbers and truth values become text, text becomes a number or a truth
value.  Anything else falls back to the default.
-/

/-- The text of a scalar; `none` for what is no scalar. -/
def asText? : Data → Except Fault (Option String)
  | .text value => .ok (some value)
  | .bool value => .ok (some (boolWord value))
  | .float value => .ok (some (plainStyle.render value))
  | .int value =>
    if value.natAbs < tenTo maxIntDigits then .ok (some (toString value))
    else .error .numberUnwritable
  | _ => .ok none

def asTexts : List Data → Except Fault (List String)
  | [] => .ok []
  | item :: rest => do
    let text? ← asText? item
    let others ← asTexts rest
    return text?.toList ++ others

/-- A list of texts; one text stands for itself, a text of bytes for their numbers, and
anything else for none. -/
def asTextList : Option Data → Except Fault (List String)
  | some (.text value) => .ok [value]
  | some (.list items) => asTexts items
  | some (.foreign value) => .ok (value.bytes.map fun byte => toString byte.toNat)
  | _ => .ok []

/-- A truth value, or one of the words for it. -/
def asBool? : Option Data → Option Bool
  | some (.bool value) => some value
  | some (.text value) =>
    let word := String.ofList (lower (trim value.toList))
    if ["true", "yes", "1"].contains word then some true
    else if ["false", "no", "0"].contains word then some false
    else none
  | _ => none

def asInt? : Option Data → Option Int
  | some (.int value) => some value
  | some (.text value) => readInt? value.toList
  | _ => none

def floatOfInt (value : Int) : Except Fault Float :=
  let float := Float.ofInt value
  if float.isInf then .error .numberTooLarge else .ok float

/-- A float, a whole number, or a text that is a number. -/
def asFloat? : Option Data → Except Fault (Option Float)
  | some (.int value) => (floatOfInt value).map some
  | some (.float value) => .ok (some value)
  | some (.text value) => .ok (readFloat? value.toList)
  | _ => .ok none

def amountOr (default : Amount) (value : Option Data) : Except Fault Amount :=
  (asFloat? value).map fun found => (found.map Amount.real).getD default

/-- A list of texts, or the default for what is no list. -/
def listOr (default : List String) : Option Data → Except Fault (List String)
  | some (.list items) => asTexts items
  | _ => .ok default

/-- A framework from its written form; without a name there is none. -/
def framework? (entries : Entries) : Except Fault (Option FrameworkSettings) := do
  let field (name : String) := Entries.find? entries (.text name)
  match ← asText? ((field "name").getD .null) with
  | none => return none
  | some name =>
    if name.isEmpty then return none
    let fileExtensions ← asTextList (field "fileExtensions")
    let componentPatterns ← asTextList (field "componentPatterns")
    let stylePatterns ← asTextList (field "stylePatterns")
    return some
      { name
        enabled := (asBool? (field "enabled")).getD true
        fileExtensions, componentPatterns, stylePatterns }

/-- The frameworks in a list of written ones. -/
def frameworksIn : List Data → Except Fault (List FrameworkSettings)
  | [] => .ok []
  | .map entries :: rest => do
    let found ← framework? entries
    let others ← frameworksIn rest
    return found.toList ++ others
  | _ :: rest => frameworksIn rest

/-- The frameworks from their written form: the default ones when nothing is
written, and none when something other than a list is. -/
def frameworksOr (default : List FrameworkSettings) :
    Option Data → Except Fault (List FrameworkSettings)
  | none => .ok default
  | some (.list items) => frameworksIn items
  | some _ => .ok []

def ofEntries (entries : Entries) : Except Fault Settings := do
  let field (name : String) := Entries.find? entries (.text name)
  let d := Settings.default
  let frameworks ← frameworksOr d.frameworks (field "frameworks")
  let refreshInterval ← amountOr d.refreshInterval (field "refreshInterval")
  let designSystemTtl ← amountOr d.designSystemTtl (field "designSystemTtl")
  let scanPaths ← listOr d.scanPaths (field "scanPaths")
  let excludePatterns ← listOr d.excludePatterns (field "excludePatterns")
  let componentPatterns ← listOr d.componentPatterns (field "componentPatterns")
  return {
    scanPaths, excludePatterns, frameworks, componentPatterns
    cacheEnabled := (asBool? (field "cacheEnabled")).getD d.cacheEnabled
    autoRefresh := (asBool? (field "autoRefresh")).getD d.autoRefresh
    refreshInterval
    cacheMaxSize := (asInt? (field "cacheMaxSize")).getD d.cacheMaxSize
    designSystemTtl }

end ComponentAtlas.Settings
