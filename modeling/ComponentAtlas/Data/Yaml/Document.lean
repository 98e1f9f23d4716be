/-
Module: ComponentAtlas.Data.Yaml.Document
Purpose: YAML documents: mappings and lists, in brackets or by indentation.
Main exports:
  Yaml.read
-/
import ComponentAtlas.Data.Yaml.Scalar
import ComponentAtlas.Data.Yaml.Text

namespace ComponentAtlas.Yaml

/-!
A document is read from a place and leaves a later place behind it.  Collections
in brackets pay no attention to lines.  Collections by indentation start on a line
of their own, or behind a hyphen; each of their entries starts in the column of
the first one.  A key and its colon stand on one line.
-/

/-- What reading gives: a value and the place behind it. -/
abbrev Found (α : Type) := α × Cursor

/-- Reading stops because the text follows no rule. -/
def malformed {α : Type} : Except FormatError α := .error .malformed

/-- What an optional result gives, or nothing that follows a rule. -/
def orMalformed {α : Type} : Option α → Except FormatError α
  | some value => .ok value
  | none => malformed

/-- The key that a value makes; collections make none. -/
def keyOf? : Data → Option Key
  | .null => some .null
  | .bool value => some (.bool value)
  | .int value => some (.int value)
  | .float value => some (.float value)
  | .text value => some (.text value)
  | _ => none

def quoted? (cursor : Cursor) : Option (Found Data) :=
  let found :=
    match cursor.rest with
    | '\'' :: rest => singleQuoted [] (rest.length + 1) rest
    | '"' :: rest => doubleQuoted [] (rest.length + 1) rest
    | _ => none
  found.map fun (text, rest) => (.text (String.ofList text), cursor.upTo rest)

def quoteHere (cursor : Cursor) : Bool :=
  cursor.rest.head? = some '\'' || cursor.rest.head? = some '"'

/-- The two places lie on one line: no line end is between them. -/
def sameLine (first second : Cursor) : Bool :=
  !(first.rest.take (first.rest.length - second.rest.length)).any isBreak

def token (cursor : Cursor) : Cursor := cursor.toToken.1

mutual

/-- A value between brackets, or a scalar that stands there. -/
def flowNode : (fuel : Nat) → Cursor → Except FormatError (Found Data)
  | 0, _ => malformed
  | fuel + 1, cursor =>
    match cursor.rest with
    | '[' :: _ => do
      let (items, after) ← flowItems fuel (token cursor.next)
      return (.list items, after)
    | '{' :: _ => do
      let (entries, after) ← flowEntries fuel (token cursor.next)
      return (.ofPairs entries, after)
    | _ =>
      if quoteHere cursor then orMalformed (quoted? cursor)
      else if startsPlain true cursor.rest && !cursor.isMarker then do
        let scalar := plain true 0 cursor
        return (← plainValue scalar.text, scalar.cursor)
      else malformed

/-- The value behind the colon of an entry between brackets; it may be missing. -/
def flowValue : (fuel : Nat) → Cursor → Except FormatError (Found Data)
  | 0, _ => malformed
  | fuel + 1, cursor =>
    match cursor.rest.head? with
    | some ',' | some ']' | some '}' => return (.null, cursor)
    | _ => flowNode fuel cursor

/-- An entry: a key and, behind a colon on its line, a value. -/
def flowEntry : (fuel : Nat) → Cursor → Except FormatError (Found (Data × Option Data))
  | 0, _ => malformed
  | fuel + 1, cursor => do
    let (first, afterFirst) ← flowNode fuel cursor
    let here := token afterFirst
    match here.rest with
    | ':' :: _ =>
      if sameLine cursor here then
        let (value, after) ← flowValue fuel (token here.next)
        return ((first, some value), token after)
      else malformed
    | _ => return ((first, none), here)

/-- The items of a list through its closing bracket.  An item with a colon is a
mapping of one entry. -/
def flowItems : (fuel : Nat) → Cursor → Except FormatError (Found (List Data))
  | 0, _ => malformed
  | fuel + 1, cursor =>
    match cursor.rest with
    | ']' :: _ => return ([], cursor.next)
    | _ => do
      let ((first, value), after) ← flowEntry fuel cursor
      let item ←
        match value with
        | some value => do
          let key ← orMalformed (keyOf? first)
          pure (Data.ofPairs [(key, value)])
        | none => pure first
      match after.rest with
      | ']' :: _ => return ([item], after.next)
      | ',' :: _ =>
        let (items, final) ← flowItems fuel (token after.next)
        return (item :: items, final)
      | _ => malformed

/-- The entries of a mapping through its closing brace.  An entry without a colon
has null as its value. -/
def flowEntries : (fuel : Nat) → Cursor → Except FormatError (Found (List (Key × Data)))
  | 0, _ => malformed
  | fuel + 1, cursor =>
    match cursor.rest with
    | '}' :: _ => return ([], cursor.next)
    | _ => do
      let ((first, value), after) ← flowEntry fuel cursor
      let key ← orMalformed (keyOf? first)
      let entry := (key, value.getD .null)
      match after.rest with
      | '}' :: _ => return ([entry], after.next)
      | ',' :: _ =>
        let (entries, final) ← flowEntries fuel (token after.next)
        return (entry :: entries, final)
      | _ => malformed

end

def flow (cursor : Cursor) : Except FormatError (Found Data) :=
  flowNode (4 * cursor.rest.length + 4) cursor

def flowHere (cursor : Cursor) : Bool :=
  cursor.rest.head? = some '[' || cursor.rest.head? = some '{'

def itemHere (cursor : Cursor) : Bool :=
  match cursor.rest with
  | '-' :: rest => gapHere rest
  | _ => false

/-- A value that may be a key: its text ends on the line where it starts, and a
colon with a gap behind it follows. -/
def key? (cursor : Cursor) : Except FormatError (Option (Found Data)) := do
  let found? ←
    if quoteHere cursor then pure (quoted? cursor)
    else if flowHere cursor then some <$> flow cursor
    else if startsPlain false cursor.rest then do
      let word := plain false 0 cursor
      -- Only the part on the first line can be a key.
      if word.isMultiline || word.crossed then pure none
      else pure (some (← plainValue word.text, word.cursor))
    else pure none
  match found? with
  | none => return none
  | some (value, after) =>
    let (here, crossed) := after.toToken
    match here.rest with
    | ':' :: rest =>
      if !crossed && sameLine cursor here && gapHere rest then return some (value, here.next)
      else return none
    | _ => return none

/-- The place of the next token, which must lie on another line. -/
def lineEnd (cursor : Cursor) : Except FormatError Cursor :=
  let (here, crossed) := cursor.toToken
  if crossed || here.isEnd then .ok here else malformed

/-- A value that is no collection by indentation.  Further lines of it are indented
by at least `indent`. -/
def inlineNode (indent : Nat) (cursor : Cursor) : Except FormatError (Found Data) :=
  if quoteHere cursor then do
    let (value, after) ← orMalformed (quoted? cursor)
    return (value, ← lineEnd after)
  else if flowHere cursor then do
    let (value, after) ← flow cursor
    return (value, ← lineEnd after)
  else if startsPlain false cursor.rest then do
    let scalar := plain false indent cursor
    let value ← plainValue scalar.text
    let (here, crossed) := scalar.cursor.toToken
    if scalar.crossed || crossed || here.isEnd then return (value, here) else malformed
  else malformed

mutual

/-- A value that starts where a collection by indentation may start; `indent` is
the least indentation of its further lines. -/
def blockNode : (fuel : Nat) → (indent : Nat) → Cursor → Except FormatError (Found Data)
  | 0, _, _ => malformed
  | fuel + 1, indent, cursor =>
    if itemHere cursor then do
      let (items, after) ← blockItems fuel cursor.column cursor
      return (.list items, after)
    else do
      match ← key? cursor with
      | some _ =>
        let (entries, after) ← blockEntries fuel cursor.column cursor
        return (.ofPairs entries, after)
      | none => inlineNode indent cursor

/-- The items of a list whose hyphens stand in a column. -/
def blockItems : (fuel : Nat) → (column : Nat) → Cursor → Except FormatError (Found (List Data))
  | 0, _, _ => malformed
  | fuel + 1, column, cursor => do
    let (here, crossed) := cursor.next.toToken
    let (item, after) ←
      if here.isEnd || (crossed && here.column ≤ column) then pure (Data.null, here)
      else blockNode fuel (column + 1) here
    if !after.isEnd && after.column = column && itemHere after then
      let (items, final) ← blockItems fuel column after
      return (item :: items, final)
    else return ([item], after)

/-- The value behind the colon of an entry whose key stands in a column.  A list
may start in that same column. -/
def blockValue : (fuel : Nat) → (column : Nat) → Cursor → Except FormatError (Found Data)
  | 0, _, _ => malformed
  | fuel + 1, column, cursor =>
    let (here, crossed) := cursor.toToken
    if here.isEnd then return (.null, here)
    else if !crossed then inlineNode (column + 1) here
    else if column < here.column then blockNode fuel (column + 1) here
    else if here.column = column && itemHere here then do
      let (items, after) ← blockItems fuel column here
      return (.list items, after)
    else return (.null, here)

/-- The entries of a mapping whose keys stand in a column. -/
def blockEntries : (fuel : Nat) → (column : Nat) → Cursor →
    Except FormatError (Found (List (Key × Data)))
  | 0, _, _ => malformed
  | fuel + 1, column, cursor => do
    let (first, afterColon) ← orMalformed (← key? cursor)
    let key ← orMalformed (keyOf? first)
    let (value, after) ← blockValue fuel column afterColon
    if !after.isEnd && after.column = column then
      let (entries, final) ← blockEntries fuel column after
      return ((key, value) :: entries, final)
    else return ([(key, value)], after)

end

def isAllowed (c : Char) : Bool :=
  let code := c.toNat
  code = 9 || code = 10 || code = 13 || (0x20 ≤ code && code ≤ 0x7E) || code = 0x85 ||
    (0xA0 ≤ code && code ≤ 0xD7FF) || (0xE000 ≤ code && code ≤ 0xFFFD) || 0x10000 ≤ code

def finished (cursor : Cursor) : Bool :=
  cursor.rest.isEmpty ||
    (cursor.isMarker && cursor.rest.head? = some '.' &&
      (token (cursor.forward 3)).rest.isEmpty)

/-- The value of the only document.  Behind the mark that may open it, no
collection by indentation starts on the same line. -/
def document (cursor : Cursor) : Except FormatError (Found Data) :=
  let start := token cursor
  let fuel := 4 * start.rest.length + 8
  if start.rest.isEmpty then return (.null, start)
  else if start.isMarker && start.rest.head? = some '-' then
    let (here, crossed) := (start.forward 3).toToken
    if here.isEnd then return (.null, here)
    else if crossed then blockNode fuel 0 here
    else if itemHere here then malformed
    else inlineNode 0 here
  -- Dots end a document, and a sign for directives opens what this reader knows not.
  else if start.isMarker || start.rest.head? = some '%' then malformed
  else blockNode fuel 0 start

def read (text : String) : Except FormatError Data := do
  let chars := text.toList
  let body := if chars.head? = some (Char.ofNat 0xFEFF) then chars.drop 1 else chars
  if !body.all isAllowed then malformed
  else
    let (value, after) ← document { rest := body, column := 0 }
    if finished after then return value else malformed

end ComponentAtlas.Yaml
