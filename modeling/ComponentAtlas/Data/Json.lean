/-
Module: ComponentAtlas.Data.Json
Purpose: JSON documents: reading and writing.
Main exports:
  Json.read, Json.write, Json.writeIndented
-/
import ComponentAtlas.Data.Literal
import ComponentAtlas.Decimal.Reading
import ComponentAtlas.Text.Search

namespace ComponentAtlas.Json

open Decimal

/-!
The reader takes one value with blanks around it.  It accepts the words `NaN`,
`Infinity` and `-Infinity` as floats, keeps whole numbers exact, and lets the
last of several entries with one key win.  The writer produces ASCII only.
-/

def isSpace (c : Char) : Bool := c = ' ' || c = '\t' || c = '\n' || c = '\r'

/-- The text from its first character that is no blank. -/
def skipSpace (text : List Char) : List Char := text.dropWhile isSpace

def hexDigit? (c : Char) : Option Nat :=
  if c.isDigit then some (c.toNat - '0'.toNat)
  else if 'a' ≤ c && c ≤ 'f' then some (c.toNat - 'a'.toNat + 10)
  else if 'A' ≤ c && c ≤ 'F' then some (c.toNat - 'A'.toNat + 10)
  else none

/-- The value of exactly `count` hexadecimal digits, and the rest. -/
def takeHex? : (count : Nat) → List Char → Option (Nat × List Char)
  | 0, text => some (0, text)
  | _ + 1, [] => none
  | count + 1, c :: rest => do
    let digit ← hexDigit? c
    let (value, after) ← takeHex? count rest
    pure (digit * 16 ^ count + value, after)

/-- The character of a code unit; a surrogate without partner has none and is
shown as the replacement character. -/
def charOfUnit (unit : Nat) : Char :=
  if 0xD800 ≤ unit && unit < 0xE000 then Char.ofNat 0xFFFD else Char.ofNat unit

/-- The character that an escape of one letter stands for. -/
def shortEscape? (c : Char) : Option Char :=
  match c with
  | '"' => some '"'
  | '\\' => some '\\'
  | '/' => some '/'
  | 'b' => some (Char.ofNat 8)
  | 'f' => some (Char.ofNat 12)
  | 'n' => some '\n'
  | 'r' => some '\r'
  | 't' => some '\t'
  | _ => none

/-- One escaped character: `text` follows the backslash and the letter `u`. -/
def takeUnit? (text : List Char) : Option (Char × List Char) := do
  let (unit, rest) ← takeHex? 4 text
  if 0xD800 ≤ unit && unit < 0xDC00 then
    -- Two escaped surrogates make one character.
    match rest with
    | '\\' :: 'u' :: more =>
      match takeHex? 4 more with
      | some (second, after) =>
        if 0xDC00 ≤ second && second < 0xE000 then
          pure (Char.ofNat (0x10000 + (unit - 0xD800) * 0x400 + (second - 0xDC00)), after)
        else pure (charOfUnit unit, rest)
      | none => pure (charOfUnit unit, rest)
    | _ => pure (charOfUnit unit, rest)
  else pure (charOfUnit unit, rest)

/-- The characters of a string after its opening quote, in reverse order on top
of `taken`, and the rest after the closing quote. -/
def takeString (taken : List Char) : (fuel : Nat) → List Char → Except FormatError (List Char × List Char)
  | 0, _ => .error .malformed
  | _ + 1, [] => .error .malformed
  | fuel + 1, c :: rest =>
    if c = '"' then .ok (taken, rest)
    else if c = '\\' then
      match rest with
      | 'u' :: more =>
        match takeUnit? more with
        | some (unit, after) => takeString (unit :: taken) fuel after
        | none => .error .malformed
      | e :: more =>
        match shortEscape? e with
        | some plain => takeString (plain :: taken) fuel more
        | none => .error .malformed
      | [] => .error .malformed
    else if c.toNat < 32 then .error .malformed
    else takeString (c :: taken) fuel rest

def string (text : List Char) : Except FormatError (String × List Char) :=
  (takeString [] (text.length + 1) text).map fun (taken, rest) =>
    (String.ofList taken.reverse, rest)

/-- The ASCII digits in front of a text, and the rest. -/
def span (text : List Char) : List Char × List Char :=
  (text.takeWhile Char.isDigit, text.dropWhile Char.isDigit)

def digitsOf (digits : List Char) : Nat :=
  digitsValue (digits.map fun c => c.toNat - '0'.toNat)

/-- The fraction of a number: the digits after a point, when there are some. -/
def fraction (text : List Char) : List Char × List Char :=
  match text with
  | '.' :: rest =>
    match span rest with
    | ([], _) => ([], text)
    | found => found
  | _ => ([], text)

/-- The exponent of a number, when there is one with digits. -/
def exponent (text : List Char) : Option Int × List Char :=
  match text with
  | e :: rest =>
    if e = 'e' || e = 'E' then
      let (negative, body) := takeSign rest
      match span body with
      | ([], _) => (none, text)
      | (digits, after) =>
        let size : Int := digitsOf digits
        (some (if negative then -size else size), after)
    else (none, text)
  | [] => (none, text)

/-- A number.  It is whole when it has neither fraction nor exponent. -/
def number (negative : Bool) (text : List Char) : Except FormatError (Data × List Char) :=
  -- A leading zero stands alone.
  let (whole, afterWhole) :=
    match text with
    | '0' :: rest => (['0'], rest)
    | _ => span text
  if whole.isEmpty then .error .malformed
  else
    let (part, afterPart) := fraction afterWhole
    let (power, rest) := exponent afterPart
    if part.isEmpty && power.isNone then
      if whole.length > maxIntDigits then .error (.tooManyDigits whole.length)
      else
        let value : Int := digitsOf whole
        .ok (.int (if negative then -value else value), rest)
    else
      let value := floatOfDecimal (digitsOf (whole ++ part)) (power.getD 0 - part.length)
      .ok (.float (withSign negative value), rest)

/-- The words of the grammar and their values. -/
def wordsOfGrammar : List (String × Data) :=
  [("null", .null), ("true", .bool true), ("false", .bool false), ("NaN", .float (0 / 0)),
    ("Infinity", .float (1 / 0)), ("-Infinity", .float (-1 / 0))]

/-- The value of the word with which the text begins, and the rest. -/
def word? (text : List Char) : Option (Data × List Char) :=
  wordsOfGrammar.findSome? fun (word, value) =>
    (Text.after? word.toList text).map (value, ·)

/-- A value that is neither list nor mapping. -/
def scalar (text : List Char) : Except FormatError (Data × List Char) :=
  match text with
  | '"' :: rest => (string rest).map fun (value, after) => (.text value, after)
  | _ =>
    match word? text with
    | some found => .ok found
    | none =>
      match text with
      | '-' :: rest => number true rest
      | _ => number false text

mutual

/-- One value; the fuel exceeds the number of characters. -/
def value : (fuel : Nat) → List Char → Except FormatError (Data × List Char)
  | 0, _ => .error .malformed
  | fuel + 1, text =>
    match text with
    | '[' :: rest =>
      match skipSpace rest with
      | ']' :: after => .ok (.list [], after)
      | inner => (items fuel inner).map fun (found, after) => (.list found, after)
    | '{' :: rest =>
      match skipSpace rest with
      | '}' :: after => .ok (.map [], after)
      | inner => (members fuel inner).map fun (found, after) => (.ofPairs found, after)
    | _ => scalar text

/-- The items of a list from the first one through the closing bracket. -/
def items : (fuel : Nat) → List Char → Except FormatError (List Data × List Char)
  | 0, _ => .error .malformed
  | fuel + 1, text => do
    let (item, rest) ← value fuel text
    match skipSpace rest with
    | ']' :: after => pure ([item], after)
    | ',' :: after => do
      let (others, last) ← items fuel (skipSpace after)
      pure (item :: others, last)
    | _ => .error .malformed

/-- The entries of a mapping from the first one through the closing brace. -/
def members : (fuel : Nat) → List Char → Except FormatError (List (Key × Data) × List Char)
  | 0, _ => .error .malformed
  | fuel + 1, text =>
    match text with
    | '"' :: start => do
      let (key, rest) ← string start
      match skipSpace rest with
      | ':' :: after => do
        let (item, more) ← value fuel (skipSpace after)
        match skipSpace more with
        | '}' :: last => pure ([(.text key, item)], last)
        | ',' :: next => do
          let (others, last) ← members fuel (skipSpace next)
          pure ((.text key, item) :: others, last)
        | _ => .error .malformed
      | _ => .error .malformed
    | _ => .error .malformed

end

def read (text : String) : Except FormatError Data := do
  let chars := skipSpace text.toList
  let (found, rest) ← value (chars.length + 1) chars
  if (skipSpace rest).isEmpty then pure found else .error .malformed

/-- One UTF-16 code unit as an escape. -/
def unitEscape (unit : Nat) : List Char := ['\\', 'u'] ++ hexText 4 unit

def escape (c : Char) : List Char :=
  if c = '"' then ['\\', '"']
  else if c = '\\' then ['\\', '\\']
  else if c = '\n' then ['\\', 'n']
  else if c = '\r' then ['\\', 'r']
  else if c = '\t' then ['\\', 't']
  else if c.toNat = 8 then ['\\', 'b']
  else if c.toNat = 12 then ['\\', 'f']
  else if 32 ≤ c.toNat && c.toNat < 127 then [c]
  else if c.toNat < 0x10000 then unitEscape c.toNat
  else
    let code := c.toNat - 0x10000
    unitEscape (0xD800 + code / 0x400) ++ unitEscape (0xDC00 + code % 0x400)

def quoted (text : String) : String :=
  String.ofList ('"' :: text.toList.flatMap escape ++ ['"'])

/-!
The format has no word for a foreign value, and none is ever written.  For the writer such
a value is its literal.
-/

def keyText : Key → String
  | .null => "null"
  | .bool value => if value then "true" else "false"
  | .int value => toString value
  | .float value => jsonStyle.render value
  | .text value => value
  | .foreign value => value.literal.getD ""

mutual

def write : Data → String
  | .null => "null"
  | .bool value => if value then "true" else "false"
  | .int value => toString value
  | .float value => jsonStyle.render value
  | .text value => quoted value
  | .list items => "[" ++ ",".intercalate (writeItems items) ++ "]"
  | .map entries => "\x7b" ++ ",".intercalate (writeEntries entries) ++ "\x7d"
  | .foreign value => quoted (value.literal.getD "")

def writeItems : List Data → List String
  | [] => []
  | item :: rest => write item :: writeItems rest

def writeEntries : List (Key × Data) → List String
  | [] => []
  | (key, value) :: rest => (quoted (keyText key) ++ ":" ++ write value) :: writeEntries rest

end

/-- A line break and the blanks of an indented line. -/
def newLine (depth : Nat) : String :=
  String.ofList ('\n' :: List.replicate (2 * depth) ' ')

/-- Put written parts between brackets, one a line. -/
def bracketed (opener closer : String) (depth : Nat) (parts : List String) : String :=
  if parts.isEmpty then opener ++ closer
  else
    opener ++ newLine (depth + 1) ++ ("," ++ newLine (depth + 1)).intercalate parts ++
      newLine depth ++ closer

mutual

/-- A value over several lines, two blanks a level. -/
def writeAt (depth : Nat) : Data → String
  | .list items => bracketed "[" "]" depth (writeItemsAt (depth + 1) items)
  | .map entries => bracketed "\x7b" "\x7d" depth (writeEntriesAt (depth + 1) entries)
  | data => write data

def writeItemsAt (depth : Nat) : List Data → List String
  | [] => []
  | item :: rest => writeAt depth item :: writeItemsAt depth rest

/-- The written entries of an indented mapping. -/
def writeEntriesAt (depth : Nat) : List (Key × Data) → List String
  | [] => []
  | (key, value) :: rest =>
    (quoted (keyText key) ++ ": " ++ writeAt depth value) :: writeEntriesAt depth rest

end

def writeIndented (data : Data) : String := writeAt 0 data

end ComponentAtlas.Json
