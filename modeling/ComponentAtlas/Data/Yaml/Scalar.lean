/-
Module: ComponentAtlas.Data.Yaml.Scalar
Purpose: What a plain YAML scalar stands for.
Main exports:
  Yaml.plainValue
-/
import ComponentAtlas.Data.Json

namespace ComponentAtlas.Yaml

open Decimal

/-!
A scalar without quotes is null, a truth value, a number or a text, as its
spelling says.  The words for truth values are those of version 1.1 of the format,
and a float needs a point.
-/

def nullWords : List String := ["", "~", "null", "Null", "NULL"]

def trueWords : List String :=
  ["yes", "Yes", "YES", "true", "True", "TRUE", "on", "On", "ON"]

def falseWords : List String :=
  ["no", "No", "NO", "false", "False", "FALSE", "off", "Off", "OFF"]

/-- A digit or the underscore that may stand between digits. -/
def isDigitOrGap (c : Char) : Bool := c.isDigit || c = '_'

def withoutUnderscores (text : List Char) : List Char := text.filter (· ≠ '_')

/-- A text of digits of a base and underscores, with at least one sign. -/
def isDigits (isDigit : Char → Bool) (text : List Char) : Bool :=
  !text.isEmpty && text.all fun c => isDigit c || c = '_'

/-- The value of digits of a base. -/
def valueInBase (base : Nat) (digits : List Char) : Nat :=
  digits.foldl (fun value c => base * value + (Json.hexDigit? c).getD 0) 0

/-- Whole minutes or seconds behind a colon: one or two digits below sixty. -/
def isSixtieth (part : List Char) : Bool :=
  match part with
  | [c] => c.isDigit
  | [c, d] => '0' ≤ c && c ≤ '5' && d.isDigit
  | _ => false

/-- The value of parts that are counted in sixties. -/
def valueOfSixties (parts : List (List Char)) : Nat :=
  parts.foldl (fun value part => 60 * value + Json.digitsOf part) 0

/-- The size of a whole number without sign, as its spelling says. -/
def intSize? (body : List Char) : Option (Except FormatError Nat) :=
  match body with
  | '0' :: 'b' :: rest =>
    if isDigits (fun c => c = '0' || c = '1') rest then
      some (.ok (valueInBase 2 (withoutUnderscores rest)))
    else none
  | '0' :: 'x' :: rest =>
    if isDigits (fun c => (Json.hexDigit? c).isSome) rest then
      some (.ok (valueInBase 16 (withoutUnderscores rest)))
    else none
  | ['0'] => some (.ok 0)
  | '0' :: rest =>
    if isDigits (fun c => '0' ≤ c && c ≤ '7') rest then
      some (.ok (valueInBase 8 (withoutUnderscores rest)))
    else none
  | c :: rest =>
    if !c.isDigit then none
    else if rest.all isDigitOrGap then
      let digits := withoutUnderscores body
      some (if digits.length > maxIntDigits then .error (.tooManyDigits digits.length)
        else .ok (Json.digitsOf digits))
    else
      match Text.splitWhere (· = ':') body with
      | first :: (second :: others) =>
        if first.all isDigitOrGap && (second :: others).all isSixtieth then
          some (.ok (valueOfSixties ((first :: second :: others).map withoutUnderscores)))
        else none
      | _ => none
  | [] => none

def int? (text : List Char) : Option (Except FormatError Int) :=
  let (negative, body) := takeSign text
  (intSize? body).map fun size =>
    size.map fun (n : Nat) => if negative then -(n : Int) else (n : Int)

/-- An exponent with its sign at the end of a float, or nothing. -/
def isExponent (text : List Char) : Bool :=
  match text with
  | [] => true
  | e :: sign :: digits =>
    (e = 'e' || e = 'E') && (sign = '+' || sign = '-') && !digits.isEmpty &&
      digits.all Char.isDigit
  | _ => false

/-- A float without sign: digits around a point, and perhaps an exponent. -/
def isPointed (body : List Char) (signed : Bool) : Bool :=
  let whole := body.takeWhile isDigitOrGap
  match body.dropWhile isDigitOrGap with
  | '.' :: rest =>
    let part := rest.takeWhile isDigitOrGap
    isExponent (rest.dropWhile isDigitOrGap) &&
      if whole.isEmpty then !signed && part.head?.any Char.isDigit
      else whole.head?.any Char.isDigit
  | _ => false

/-- Floats counted in sixties, the least first. -/
def floatOfSixties (parts : List Float) : Float :=
  (parts.foldl (fun (value, unit) part => (value + part * unit, unit * 60))
    ((0, 1) : Float × Float)).1

/-- The size of a float without sign that is counted in sixties: whole parts between
colons, and a point behind the last one. -/
def sixties? (body : List Char) : Option Float :=
  match body.dropWhile (· ≠ '.') with
  | [] => none
  | point :: fraction =>
    match Text.splitWhere (· = ':') (body.takeWhile (· ≠ '.')) with
    | first :: second :: others =>
      if first.head?.any Char.isDigit && first.all isDigitOrGap &&
          (second :: others).all isSixtieth && fraction.all isDigitOrGap then
        let written := (first :: second :: others).map withoutUnderscores
        let last := written.getLast?.getD [] ++ point :: withoutUnderscores fraction
        ((last :: written.dropLast.reverse).mapM readFloat?).map floatOfSixties
      else none
    | _ => none

/-- A float, or one of the words for infinity and for a value that is no number. -/
def float? (text : List Char) : Option Float :=
  let (negative, body) := takeSign text
  let word := String.ofList body
  if [".inf", ".Inf", ".INF"].contains word then some (withSign negative (1 / 0))
  else if [".nan", ".NaN", ".NAN"].contains (String.ofList text) then some (0 / 0)
  else if isPointed body (text ≠ body) then readFloat? (withoutUnderscores text)
  else (sixties? body).map (withSign negative)

def plainValue (text : List Char) : Except FormatError Data :=
  let word := String.ofList text
  if nullWords.contains word then .ok .null
  else if trueWords.contains word then .ok (.bool true)
  else if falseWords.contains word then .ok (.bool false)
  else
    match float? text with
    | some value => .ok (.float value)
    | none =>
      match int? text with
      | some value => value.map .int
      | none => .ok (.text word)

end ComponentAtlas.Yaml
