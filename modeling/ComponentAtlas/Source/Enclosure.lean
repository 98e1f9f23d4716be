/-
Module: ComponentAtlas.Source.Enclosure
Purpose: Where a bracket, a literal or a comment of a script ends.
Main exports:
  Frame, move, closing, literalLength, commentLength?, groupLength?,
  groupBody, literalEnd?, bracketEnd?
-/

namespace ComponentAtlas.Source

/-!
Brackets, literals and comments of a script contain one another: a bracket may
hold a template literal whose interpolation holds brackets again.  One pass
with a stack of open frames decides where the outermost of them ends.  The pass
is a recursion on the text, so it ends on every input, and its answer is a
number of characters, so it can never point outside the text.
-/

/-- What is open at a place of a script. -/
inductive Frame where
  /-- A bracket of any kind: the kind of the closing bracket is not compared. -/
  | bracket
  /-- A literal, opened by the given character. -/
  | literal (quote : Char)
  /-- A comment that runs to the end of its line. -/
  | lineComment
  /-- A comment that runs to the next star and slash. -/
  | blockComment
deriving Repr, DecidableEq

def isOpener (c : Char) : Bool := c = '{' || c = '[' || c = '('

def isCloser (c : Char) : Bool := c = '}' || c = ']' || c = ')'

/-- The quotes whose literals end with their line at the latest. -/
def isLineQuote (c : Char) : Bool := c = '"' || c = '\''

def isQuote (c : Char) : Bool := isLineQuote c || c = '`'

/-- What one character does to the open frames. -/
structure Move where
  /-- The frames open afterwards, the innermost first. -/
  frames : List Frame
  /-- The next character belongs to the same sign and is passed unexamined. -/
  pair : Bool := false
deriving Repr, DecidableEq

/-- The effect of a character on the innermost frame `frame` with the frames
`below` it, seeing also the character that comes next.  A line break ends a
quoted literal and a line comment without belonging to them: when nothing else
is open the answer is `none`, for the frame ended before this character. -/
def move (frame : Frame) (below : List Frame) (c : Char) (next : Option Char) :
    Option Move :=
  match frame with
  | .literal q =>
    -- An escape takes the next character whatever it is.
    if c = '\\' then some { frames := frame :: below, pair := true }
    else if c = q then some { frames := below }
    else if c = '\n' && isLineQuote q then
      if below.isEmpty then none else some { frames := below }
    else if c = '$' && q = '`' && next = some '{' then
      some { frames := .bracket :: frame :: below, pair := true }
    else some { frames := frame :: below }
  | .lineComment =>
    if c = '\n' then
      if below.isEmpty then none else some { frames := below }
    else some { frames := frame :: below }
  | .blockComment =>
    if c = '*' && next = some '/' then some { frames := below, pair := true }
    else some { frames := frame :: below }
  | .bracket =>
    if isQuote c then some { frames := .literal c :: frame :: below }
    else if c = '/' && next = some '/' then
      some { frames := .lineComment :: frame :: below, pair := true }
    else if c = '/' && next = some '*' then
      some { frames := .blockComment :: frame :: below, pair := true }
    else if isOpener c then some { frames := .bracket :: frame :: below }
    else if isCloser c then some { frames := below }
    else some { frames := frame :: below }

/-- Count the characters that were just passed into a later answer. -/
def pass (count : Nat) (later : Option Nat) : Option Nat := later.map (· + count)

/-- The number of characters up to the end of the last open frame; `none` when
the text ends before.  With `pair` the first character is passed unexamined. -/
def closing : (frames : List Frame) → (pair : Bool) → List Char → Option Nat
  | [], false, _ => some 0
  | [], true, [] => none
  | [], true, _ :: _ => some 1
  | _ :: _, _, [] => none
  | frame :: below, true, _ :: rest => pass 1 (closing (frame :: below) false rest)
  | frame :: below, false, c :: rest =>
    match move frame below c rest.head? with
    | none => some 0
    | some next => pass 1 (closing next.frames next.pair rest)

/-- Length of a literal without its opening quote: through the closing quote,
up to a line break that ends it, or to the end of the text. -/
def literalLength (quote : Char) (rest : List Char) : Nat :=
  (closing [.literal quote] false rest).getD rest.length

/-- Length of a comment without its first slash, if a comment starts with this
slash: `rest` is what follows it. -/
def commentLength? (rest : List Char) : Option Nat :=
  match rest with
  | '/' :: body => some (1 + (closing [.lineComment] false body).getD body.length)
  | '*' :: body => some (1 + (closing [.blockComment] false body).getD body.length)
  | _ => none

/-- Number of characters inside a bracket whose opening was just passed, when
it is closed. -/
def groupLength? (rest : List Char) : Option Nat :=
  (closing [.bracket] false rest).map (· - 1)

/-- The inside of a bracket whose opening was just passed: up to the matching
closing bracket, or everything when it is never closed. -/
def groupBody (rest : List Char) : List Char :=
  match groupLength? rest with
  | some size => rest.take size
  | none => rest

/-!
The same answers as positions in a whole text, for callers that think in
indexes.
-/

/-- The index just past the literal that starts at `index`; `none` when there is
no such place. -/
def literalEnd? (text : List Char) (index : Nat) : Option Nat :=
  match text.drop index with
  | [] => none
  | quote :: rest => some (index + 1 + literalLength quote rest)

/-- The index of the bracket that closes the one at `index`; `none` when no
bracket opens there or it is never closed. -/
def bracketEnd? (text : List Char) (index : Nat) : Option Nat :=
  match text.drop index with
  | [] => none
  | opener :: rest =>
    if isOpener opener then (groupLength? rest).map (index + 1 + ·) else none

end ComponentAtlas.Source
