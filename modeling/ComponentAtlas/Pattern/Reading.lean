/-
Module: ComponentAtlas.Pattern.Reading
Purpose: Search patterns from their written form.
Main exports:
  Search.ofChars?
-/
import ComponentAtlas.Data.Json
import ComponentAtlas.Pattern.Basic

namespace ComponentAtlas

open ComponentAtlas.Text

/-!
The written form has the usual signs: a dot for any character of a line, a caret
and a dollar for the ends of the text, brackets for sets, parentheses for groups,
a bar between alternatives, and the repetitions `*`, `+`, `?` and counts in
braces.  Reading fails on whatever is left open, on a repetition of nothing, and
on a backslash before a letter without a meaning.
-/

namespace Pattern

/-- Control characters by the letter behind a backslash. -/
def controlLetters : List (Char × Nat) :=
  [('n', 10), ('t', 9), ('r', 13), ('f', 12), ('v', 11), ('a', 7)]

/-- The class of characters that a letter stands for, in upper case everything
outside it. -/
def classLetter? (c : Char) : Option SetItem :=
  match c with
  | 'w' => some { charClass := .word }
  | 'W' => some { outside := true, charClass := .word }
  | 'd' => some { charClass := .digit }
  | 'D' => some { outside := true, charClass := .digit }
  | 's' => some { charClass := .blank }
  | 'S' => some { outside := true, charClass := .blank }
  | _ => none

/-- A character written by its code in hexadecimal digits. -/
def codeChar? (digits : Nat) (rest : List Char) : Option (Char × List Char) :=
  (Json.takeHex? digits rest).map fun (code, after) => (Char.ofNat code, after)

/-- The character that an escape stands for; `c` follows the backslash. -/
def escapedChar? (c : Char) (rest : List Char) : Option (Char × List Char) :=
  match controlLetters.find? fun entry => entry.1 = c with
  | some (_, code) => some (Char.ofNat code, rest)
  | none =>
    if c = 'x' then codeChar? 2 rest
    else if c = 'u' then codeChar? 4 rest
    else if c = 'U' then codeChar? 8 rest
    else if c = '0' then some (Char.ofNat 0, rest)
    else if c.isAlphanum then none
    else some (c, rest)

/-- A part of a set: one character, or a class behind a backslash. -/
def setItem? : List Char → Option (SetItem × List Char)
  | [] => none
  | '\\' :: c :: rest =>
    match classLetter? c with
    | some item => some (item, rest)
    | none =>
      if c = 'b' then some ({ charClass := .range (Char.ofNat 8) (Char.ofNat 8) }, rest)
      else (escapedChar? c rest).map fun (d, after) => ({ charClass := .range d d }, after)
  | '\\' :: [] => none
  | c :: rest => some ({ charClass := .range c c }, rest)

/-- The range between two parts of a set that are single characters. -/
def rangeItem? (first last : SetItem) : Option SetItem :=
  match first.charClass, last.charClass with
  | .range a _, .range b _ => if a ≤ b then some { charClass := .range a b } else none
  | _, _ => none

/-- The parts of a set through its closing bracket. -/
def setItems? : (fuel : Nat) → (isFirst : Bool) → List Char → Option (List SetItem × List Char)
  | 0, _, _ => none
  | fuel + 1, isFirst, text =>
    match text with
    | ']' :: rest =>
      if isFirst then do
        let (items, after) ← setItems? fuel false rest
        some ({ charClass := .range ']' ']' } :: items, after)
      else some ([], rest)
    | _ => do
      let (first, rest) ← setItem? text
      match rest with
      | '-' :: more =>
        match more with
        | ']' :: after => some ([first, { charClass := .range '-' '-' }], after)
        | _ => do
          let (last, after) ← setItem? more
          let item ← rangeItem? first last
          let (items, final) ← setItems? fuel false after
          some (item :: items, final)
      | _ => do
        let (items, final) ← setItems? fuel false rest
        some (first :: items, final)

def set? (text : List Char) : Option (CharSet × List Char) :=
  match text with
  | '^' :: rest =>
    (setItems? (rest.length + 1) true rest).map fun (items, after) =>
      ({ negated := true, items }, after)
  | _ => (setItems? (text.length + 1) true text).map fun (items, after) => ({ items }, after)

/-- What an escape outside sets stands for; `c` follows the backslash. -/
def escape? (c : Char) (rest : List Char) : Option (Pattern × List Char) :=
  match classLetter? c with
  | some item => some (.one { items := [item] }, rest)
  | none =>
    if c = 'b' then some (.boundary true, rest)
    else if c = 'B' then some (.boundary false, rest)
    else if c = 'A' then some (.start, rest)
    else if c = 'Z' then some (.veryEnd, rest)
    else (escapedChar? c rest).map fun (d, after) => (.one (.single d), after)

/-- The number in front of a text, when there is one, and the rest. -/
def count? (text : List Char) : Option Nat × List Char :=
  match Json.span text with
  | ([], rest) => (none, rest)
  | (digits, rest) => (some (Json.digitsOf digits), rest)

/-- How often something is repeated: at least and at most. -/
abbrev Count := Nat × Option Nat

/-- A count after its opening brace; `none` when the brace opens no count. -/
def braces? (text : List Char) : Option (Count × List Char) :=
  match count? text with
  | (some n, '}' :: rest) => some ((n, some n), rest)
  | (least, ',' :: more) =>
    match count? more with
    | (most, '}' :: rest) => some ((least.getD 0, most), rest)
    | _ => none
  | _ => none

/-- The repetition in front of a text, when there is one, and the rest. -/
def repetition? (text : List Char) : Option (Count × List Char) :=
  match text with
  | '*' :: rest => some ((0, none), rest)
  | '+' :: rest => some ((1, none), rest)
  | '?' :: rest => some ((0, some 1), rest)
  | '{' :: rest => braces? rest
  | _ => none

/-- The text without the sign that makes a repetition lazy. -/
def withoutLazy : List Char → List Char
  | '?' :: rest => rest
  | text => text

/-- A pattern that stands for a place cannot be repeated. -/
def isPlace : Pattern → Bool
  | .start | .finish | .veryEnd | .boundary _ => true
  | _ => false

/-- Repeat an atom as the text behind it says. -/
def repeat? (atom : Pattern) (text : List Char) : Option (Pattern × List Char) :=
  match repetition? text with
  | none => some (atom, text)
  | some ((least, most), rest) =>
    if isPlace atom || most.any (· < least) then none
    else
      let after := withoutLazy rest
      -- A repetition of a repetition needs parentheses.
      if (repetition? after).isSome then none else some (.repeated atom least most, after)

mutual

/-- Alternatives up to a closing parenthesis or the end. -/
def alternatives? : (fuel : Nat) → List Char → Option (Pattern × List Char)
  | 0, _ => none
  | fuel + 1, text => do
    let (first, rest) ← sequence? fuel text
    match rest with
    | '|' :: more => do
      let (others, after) ← alternatives? fuel more
      some (.either first others, after)
    | _ => some (first, rest)

/-- Atoms in a row up to a bar, a closing parenthesis or the end. -/
def sequence? : (fuel : Nat) → List Char → Option (Pattern × List Char)
  | 0, _ => none
  | fuel + 1, text =>
    match text with
    | [] | '|' :: _ | ')' :: _ => some (.empty, text)
    | _ => do
      let (atom, rest) ← atom? fuel text
      let (item, after) ← repeat? atom rest
      let (others, final) ← sequence? fuel after
      some (.both item others, final)

def atom? : (fuel : Nat) → List Char → Option (Pattern × List Char)
  | 0, _ => none
  | fuel + 1, text =>
    match text with
    | [] => none
    | '(' :: rest => do
      let inner := match rest with
        | '?' :: ':' :: more => some more
        | '?' :: _ => none
        | _ => some rest
      let (body, after) ← alternatives? fuel (← inner)
      match after with
      | ')' :: final => some (body, final)
      | _ => none
    | '[' :: rest => (set? rest).map fun (set, after) => (.one set, after)
    | '.' :: rest => some (.one .onLine, rest)
    | '^' :: rest => some (.start, rest)
    | '$' :: rest => some (.finish, rest)
    | '\\' :: c :: rest => escape? c rest
    | '\\' :: [] => none
    | c :: rest =>
      -- A repetition needs something in front of it.
      if (repetition? (c :: rest)).isSome then none else some (.one (.single c), rest)

end

end Pattern

/-- The text behind the marks `(?i)` in front of it, and whether there is one. -/
def Search.behindMarks (folded : Bool) : List Char → Bool × List Char
  | '(' :: '?' :: 'i' :: ')' :: rest => behindMarks true rest
  | text => (folded, text)

/-- Read a search pattern; `(?i)` in front of it ignores case. -/
def Search.ofChars? (text : List Char) : Option Search := do
  let (folded, body) := behindMarks false text
  let (pattern, rest) ← Pattern.alternatives? (4 * body.length + 4) body
  if rest.isEmpty then some { pattern, folded } else none

end ComponentAtlas
