/-
Module: ComponentAtlas.Data.Literal
Purpose: Data as it is quoted inside messages.
Main exports:
  quoteText, Key.literal, Data.literal, Data.isQuotable, Key.plain, Data.textKeys
-/
import ComponentAtlas.Data.Basic
import ComponentAtlas.Decimal.Reading
import ComponentAtlas.Decimal.Shortest
import ComponentAtlas.Text.Printable

namespace ComponentAtlas

open Decimal

/-- A number as exactly `size` hexadecimal digits or more. -/
def hexText (size value : Nat) : List Char := padLeft size (Nat.toDigits 16 value)

/-- A character inside quotes: the quote, the backslash and whatever cannot be
shown are escaped. -/
def quoteChar (quote c : Char) : List Char :=
  if c = quote || c = '\\' then ['\\', c]
  else if c = '\t' then ['\\', 't']
  else if c = '\n' then ['\\', 'n']
  else if c = '\r' then ['\\', 'r']
  else if Text.isPrintable c then [c]
  else
    let code := c.toNat
    if code < 0x100 then ['\\', 'x'] ++ hexText 2 code
    else if code < 0x10000 then ['\\', 'u'] ++ hexText 4 code
    else ['\\', 'U'] ++ hexText 8 code

/-- A text in quotes.  Single quotes are preferred; double quotes serve a text
that holds single quotes and no double ones. -/
def quoteText (text : String) : String :=
  let chars := text.toList
  let quote := if chars.contains '\'' && !chars.contains '"' then '"' else '\''
  String.ofList (quote :: chars.flatMap (quoteChar quote) ++ [quote])

def boolWord (value : Bool) : String := if value then "True" else "False"

def Key.literal : Key → String
  | .null => "None"
  | .bool value => boolWord value
  | .int value => toString value
  | .float value => plainStyle.render value
  | .text value => quoteText value
  | .foreign value => value.literal.getD ""

/-- A key as a text without quotes. -/
def Key.plain : Key → String
  | .text value => value
  | key => key.literal

mutual

def Data.literal : Data → String
  | .null => "None"
  | .bool value => boolWord value
  | .int value => toString value
  | .float value => plainStyle.render value
  | .text value => quoteText value
  | .list items => "[" ++ ", ".intercalate (itemLiterals items) ++ "]"
  | .map entries => "\x7b" ++ ", ".intercalate (entryLiterals entries) ++ "\x7d"
  | .foreign value => value.literal.getD ""

def itemLiterals : List Data → List String
  | [] => []
  | item :: rest => item.literal :: itemLiterals rest

def entryLiterals : List (Key × Data) → List String
  | [] => []
  | (key, value) :: rest => (key.literal ++ ": " ++ value.literal) :: entryLiterals rest

end

/-- No whole number in a key has too many digits to be written. -/
def Key.isQuotable : Key → Bool
  | .int value => value.natAbs < tenTo maxIntDigits
  | .foreign value => value.literal.isSome
  | _ => true

mutual

/-- No whole number in the data has too many digits to be written. -/
def Data.isQuotable : Data → Bool
  | .int value => value.natAbs < tenTo maxIntDigits
  | .list items => areQuotable items
  | .map entries => areQuotableEntries entries
  | .foreign value => value.literal.isSome
  | _ => true

def areQuotable : List Data → Bool
  | [] => true
  | item :: rest => item.isQuotable && areQuotable rest

def areQuotableEntries : List (Key × Data) → Bool
  | [] => true
  | (key, value) :: rest => key.isQuotable && value.isQuotable && areQuotableEntries rest

end

mutual

/-- Data with every key turned into its text; entries whose keys become equal
fall together, the later value winning. -/
def Data.textKeys : Data → Data
  | .list items => .list (textKeysItems items)
  | .map entries => .ofPairs (textKeysEntries entries)
  | data => data

def textKeysItems : List Data → List Data
  | [] => []
  | item :: rest => item.textKeys :: textKeysItems rest

def textKeysEntries : List (Key × Data) → List (Key × Data)
  | [] => []
  | (key, value) :: rest => (.text key.plain, value.textKeys) :: textKeysEntries rest

end

end ComponentAtlas
