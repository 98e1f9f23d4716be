/-
Module: ComponentAtlas.Service.Request
Purpose: The requests of the service and the questions in their bodies.
Main exports:
  Request, Route, Route.ofPath?, Route.method, SimilarQuery, SimilarQuery.ofData?
-/
import ComponentAtlas.Data.Json
import ComponentAtlas.Decimal.Binary
import ComponentAtlas.Decimal.Reading
import ComponentAtlas.Path.Basic

namespace ComponentAtlas.Service

open ComponentAtlas.Text
open ComponentAtlas.Decimal

/-- A request: its method, its path, the parameters behind the path, and its body. -/
structure Request where
  method : String := "GET"
  path : String
  parameters : List (String × String) := []
  body : Option Data := none
deriving Repr

/-- The value of a parameter; of several the last one counts. -/
def Request.parameter? (request : Request) (name : String) : Option String :=
  (request.parameters.reverse.find? fun entry => entry.1 = name).map (·.2)

/-- What a path asks about. -/
inductive Route where
  | health
  | components
  | details (name : String)
  | similar
  | design
  | categories
  | cacheStats
deriving Repr, DecidableEq

/-- The bytes of a path in which a percent sign and two digits stand for one byte. -/
def pathBytes (skip : Nat) : List Char → List UInt8
  | [] => []
  | c :: rest =>
    match skip with
    | past + 1 => pathBytes past rest
    | 0 =>
      match if c = '%' then Json.takeHex? 2 rest else none with
      | some (byte, _) => byte.toUInt8 :: pathBytes 2 rest
      | none => Utf8.encodeChar c ++ pathBytes 0 rest

/-- The names in a path.  What follows a question mark or a number sign belongs to the
path no more, and slashes at the end do not count. -/
def pathNames (path : String) : List (List Char) :=
  let written := path.toList.takeWhile fun c => c ≠ '?' && c ≠ '#'
  let text := Utf8.decodeLenient (pathBytes 0 written)
  splitWhere (· = '/') (dropRightWhile (· = '/') text)

def Route.ofPath? (path : String) : Option Route :=
  match (pathNames path).map String.ofList with
  | ["", "health"] => some .health
  | ["", "components"] => some .components
  | ["", "components", name] => some (.details name)
  | ["", "similar"] => some .similar
  | ["", "design-system"] => some .design
  | ["", "categories"] => some .categories
  | ["", "cache", "stats"] => some .cacheStats
  | _ => none

/-- The method with which to ask. -/
def Route.method : Route → String
  | .similar => "POST"
  | _ => "GET"

/-!
Values in a body are taken leniently: numbers may be written as text, and truth
values count as numbers.
-/

def textField? : Option Data → Option (Option String)
  | none | some .null => some none
  | some (.text value) => some (some value)
  | _ => none

def itemText? : Data → Option String
  | .text value => some value
  | _ => none

def textsField? : Option Data → Option (Option (List String))
  | none | some .null => some none
  | some (.list items) => (items.mapM itemText?).map some
  | _ => none

/-- A truth value as a number. -/
def bit (value : Bool) : Int := if value then 1 else 0

def numberField? (default : Float) : Option Data → Option Float
  | none => some default
  | some (.int value) => some (Float.ofInt value)
  | some (.float value) => some value
  | some (.bool value) => some (Float.ofInt (bit value))
  | some (.text value) => readFloat? value.toList
  | _ => none

/-- The text of a whole number without a point and zeros behind it. -/
def withoutZeros (text : List Char) : List Char :=
  let (whole, fraction) := (text.takeWhile (· ≠ '.'), text.dropWhile (· ≠ '.'))
  match fraction with
  | _ :: digits => if !digits.isEmpty && digits.all (· = '0') then whole else text
  | [] => text

def countField? : Option Data → Option (Option Int)
  | none | some .null => some none
  | some (.int value) => some (some value)
  | some (.float value) => ((Binary.ofFloat? value).bind Binary.wholeNumber?).map some
  | some (.bool value) => some (some (bit value))
  | some (.text value) => (readInt? (withoutZeros (trim value.toList))).map some
  | _ => none

/-- A question for similar components. -/
structure SimilarQuery where
  name : Option String
  description : Option String
  props : Option (List String)
  threshold : Float
  limit : Option Int
deriving Repr

/-- The question in a body, if the body follows its form. -/
def SimilarQuery.ofData? : Option Data → Option SimilarQuery
  | some (.map entries) => do
    let field (name : String) := Entries.find? entries (.text name)
    let name ← textField? (field "name")
    let description ← textField? (field "description")
    let props ← textsField? (field "props")
    let threshold ← numberField? 0.3 (field "threshold")
    let limit ← countField? (field "max_results")
    return { name, description, props, threshold, limit }
  | _ => none

end ComponentAtlas.Service
