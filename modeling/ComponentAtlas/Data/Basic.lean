/-
Module: ComponentAtlas.Data.Basic
Purpose: Structured data as configuration files and reports hold it.
Main exports:
  Foreign, Key, Data, Entries, Data.field?, Entries.put, Data.ofPairs
-/
import ComponentAtlas.Decimal.Binary

namespace ComponentAtlas

/-!
Data keeps whole numbers and floats apart, because a saved configuration shows
the difference, and it keeps the order in which the entries of a mapping were
first written, because reports show it.
-/

/-- A value of any other kind that a format may know: a date, a set, a text of bytes. -/
structure Foreign where
  /-- The name of the kind. -/
  kind : String
  /-- The value as it is quoted, unless it holds a number with too many digits for that. -/
  literal : Option String
  /-- What the value shares with exactly those that are equal to it; a value that may not be
  a key has nothing of the sort. -/
  identity : Option String
  /-- The bytes, of a text of bytes. -/
  bytes : List UInt8 := []
deriving Repr, DecidableEq

/-- The key of a mapping entry. -/
inductive Key where
  | null
  | bool (value : Bool)
  | int (value : Int)
  | float (value : Float)
  | text (value : String)
  | foreign (value : Foreign)
deriving Repr, DecidableEq

/-- A piece of structured data. -/
inductive Data where
  | null
  | bool (value : Bool)
  | int (value : Int)
  | float (value : Float)
  | text (value : String)
  | list (items : List Data)
  | map (entries : List (Key × Data))
  | foreign (value : Foreign)
deriving Repr, Inhabited

/-- Why a text is no document of a format. -/
inductive FormatError where
  /-- It does not follow the grammar. -/
  | malformed
  /-- A whole number has more digits than are read. -/
  | tooManyDigits (count : Nat)
deriving Repr, DecidableEq

/-- The entries of a mapping, in the order of their first writing. -/
abbrev Entries := List (Key × Data)

namespace Key

/-- A float that is a whole number, as that number. -/
def wholeFloat? (value : Float) : Option Int :=
  (Decimal.Binary.ofFloat? value).bind Decimal.Binary.wholeNumber?

/-- The key in the form in which equal keys coincide: truth values count as one
and zero, a float that is a whole number counts as that number, and of a foreign value
its identity counts. -/
def canonical : Key → Key
  | .bool value => .int (if value then 1 else 0)
  | .float value =>
    match wholeFloat? value with
    | some whole => .int whole
    | none => .float value
  | .foreign value => .foreign { kind := "", literal := none, identity := value.identity }
  | key => key

def same (left right : Key) : Bool := left.canonical = right.canonical

/-- Text keys name the same entry only when they are the same text. -/
theorem same_text (left right : String) :
    same (.text left) (.text right) = decide (left = right) := by
  simp [same, canonical]

end Key

namespace Entries

def find? (entries : Entries) (key : Key) : Option Data :=
  (List.find? (fun entry : Key × Data => entry.1.same key) entries).map (·.2)

/-- Write a value under a key: in place when the key is there, else at the
end.  The spelling of a key that is there stays. -/
def put (entries : Entries) (key : Key) (value : Data) : Entries :=
  match entries with
  | [] => [(key, value)]
  | entry :: rest =>
    if entry.1.same key then (entry.1, value) :: rest
    else entry :: put rest key value

/-- Write several entries one after the other. -/
def putAll (entries more : Entries) : Entries :=
  more.foldl (fun merged entry => put merged entry.1 entry.2) entries

end Entries

namespace Data

/-- The entry of a mapping under a text key; `none` also for what is no
mapping. -/
def field? (data : Data) (name : String) : Option Data :=
  match data with
  | .map entries => Entries.find? entries (.text name)
  | _ => none

/-- A mapping written entry by entry: a later value replaces an earlier one. -/
def ofPairs (pairs : Entries) : Data := .map (Entries.putAll [] pairs)

def record (fields : List (String × Data)) : Data :=
  .map (fields.map fun field => (.text field.1, field.2))

def texts (items : List String) : Data := .list (items.map .text)

def textOrNull : Option String → Data
  | some value => .text value
  | none => .null

end Data

end ComponentAtlas
