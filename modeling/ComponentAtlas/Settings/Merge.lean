/-
Module: ComponentAtlas.Settings.Merge
Purpose: Written settings laid over others.
Main exports:
  deepMerge, overlayFrameworks, overlay
-/
import ComponentAtlas.Fault
import ComponentAtlas.Settings.Basic

namespace ComponentAtlas.Settings

/-!
An entry of the upper settings replaces the entry below it as a whole.  Only the
frameworks are merged one by one: entries of equal name are merged deeply, and
the others come behind those below.
-/

mutual

/-- A value laid over another: mappings entry by entry, anything else as a
whole. -/
def deepMerge (below : Data) : Data → Data
  | .map upper =>
    match below with
    | .map lower => .map (mergeEntries lower upper)
    | _ => .map upper
  | value => value

/-- Entries laid over others, one after the other. -/
def mergeEntries (lower : Entries) : List (Key × Data) → Entries
  | [] => lower
  | (key, value) :: rest =>
    let merged :=
      match Entries.find? lower key with
      | some below => deepMerge below value
      | none => value
    mergeEntries (Entries.put lower key merged) rest

end

def frameworksKey : Key := .text "frameworks"

/-- The key by which a framework is found: its name, or null without one.  Lists,
mappings and some foreign values are no keys. -/
def nameKey (framework : Entries) : Except Fault Key :=
  match Entries.find? framework (.text "name") with
  | none | some .null => .ok .null
  | some (.bool value) => .ok (.bool value)
  | some (.int value) => .ok (.int value)
  | some (.float value) => .ok (.float value)
  | some (.text value) => .ok (.text value)
  | some (.list _) => .error (.unusableName "list")
  | some (.map _) => .error (.unusableName "dict")
  | some (.foreign value) =>
    if value.identity.isSome then .ok (.foreign value) else .error (.unusableName value.kind)

/-- The mappings in a list of frameworks; for no list there are none. -/
def frameworkEntries : Option Data → List Entries
  | some (.list items) =>
    items.filterMap fun item => match item with | .map entries => some entries | _ => none
  | _ => []

/-- Change the last element that passes a test, if there is one. -/
def changeLast? {α : Type} (test : α → Bool) (change : α → α) : List α → Option (List α)
  | [] => none
  | item :: rest =>
    match changeLast? test change rest with
    | some changed => some (item :: changed)
    | none => if test item then some (change item :: rest) else none

/-- Lay one framework over the last one of its name, or put it at the end. -/
def placeFramework (frameworks : List (Key × Entries)) (key : Key) (upper : Entries) :
    List (Key × Entries) :=
  (changeLast? (fun entry => entry.1.same key)
    (fun entry => (entry.1, mergeEntries entry.2 upper)) frameworks).getD
    (frameworks ++ [(key, upper)])

def overlayFrameworks (lower upper : List Entries) : Except Fault (List Entries) := do
  let keyed ← lower.mapM fun entries => return (← nameKey entries, entries)
  let merged ← upper.foldlM (fun frameworks entries =>
    return placeFramework frameworks (← nameKey entries) entries) keyed
  return merged.map (·.2)

def overlay (lower upper : Entries) : Except Fault Entries := do
  let merged := Entries.putAll lower (upper.filter fun entry => !entry.1.same frameworksKey)
  match Entries.find? upper frameworksKey with
  | some (.list items) =>
    let frameworks ← overlayFrameworks (frameworkEntries (Entries.find? lower frameworksKey))
      (frameworkEntries (some (.list items)))
    return Entries.put merged frameworksKey (.list (frameworks.map .map))
  | _ => return merged

end ComponentAtlas.Settings
