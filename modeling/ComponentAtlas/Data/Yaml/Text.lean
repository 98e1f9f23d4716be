/-
Module: ComponentAtlas.Data.Yaml.Text
Purpose: The scalars of a YAML document: quoted ones, and plain ones that may go
  on over several lines.
Main exports:
  Cursor, Cursor.toToken, singleQuoted, doubleQuoted, Plain, plain
-/
import ComponentAtlas.Data.Json

namespace ComponentAtlas.Yaml

/-- A place in a document: the rest of the text, and the number of characters
before it on its line. -/
structure Cursor where
  rest : List Char
  column : Nat
deriving Repr, DecidableEq

def isBreak (c : Char) : Bool :=
  c = '\n' || c = '\r' || c.toNat = 0x85 || c.toNat = 0x2028 || c.toNat = 0x2029

def isGap (c : Char) : Bool := c = ' ' || c = '\t' || isBreak c

/-- The text ends here or goes on with a space, a tab or a line end. -/
def gapHere (rest : List Char) : Bool := rest.head?.all isGap

namespace Cursor

def next (cursor : Cursor) : Cursor :=
  match cursor.rest with
  | [] => cursor
  | c :: rest => { rest, column := if isBreak c then 0 else cursor.column + 1 }

def forward (cursor : Cursor) : (count : Nat) → Cursor
  | 0 => cursor
  | count + 1 => cursor.next.forward count

def upTo (cursor : Cursor) (rest : List Char) : Cursor :=
  cursor.forward (cursor.rest.length - rest.length)

/-- The place behind spaces, comments and line ends, and whether a line end was
among them; `inComment` tells that the place lies in a comment. -/
def skipFrom (column : Nat) (inComment crossed : Bool) : List Char → Cursor × Bool
  | [] => ({ rest := [], column }, crossed)
  | c :: rest =>
    if isBreak c then skipFrom 0 false true rest
    else if inComment || c = ' ' then skipFrom (column + 1) inComment crossed rest
    else if c = '#' then skipFrom (column + 1) true crossed rest
    else ({ rest := c :: rest, column }, crossed)

/-- The next place that is neither space nor comment nor line end, and whether it
lies on another line. -/
def toToken (cursor : Cursor) : Cursor × Bool :=
  skipFrom cursor.column false false cursor.rest

/-- A line of three hyphens or three dots separates documents here. -/
def isMarker (cursor : Cursor) : Bool :=
  cursor.column = 0 &&
    match cursor.rest with
    | a :: b :: c :: rest =>
      ((a = '-' && b = '-' && c = '-') || (a = '.' && b = '.' && c = '.')) && gapHere rest
    | _ => false

def isEnd (cursor : Cursor) : Bool := cursor.rest.isEmpty || cursor.isMarker

end Cursor

/-- What line ends inside a scalar become: one becomes a space, and of several the
first is left out. -/
def foldBreaks (breaks : List Char) : List Char :=
  match breaks with
  | [] => []
  | [c] => if c = '\n' then [' '] else [c]
  | c :: rest => if c = '\n' then rest else c :: rest

def shownBreak (c : Char) : Char :=
  if c.toNat = 0x2028 || c.toNat = 0x2029 then c else '\n'

def breaksIn (gaps : List Char) : List Char := (gaps.filter isBreak).map shownBreak

/-- The gaps in front of a text, as they count inside quotes. -/
def quotedGap (gaps : List Char) : List Char :=
  if gaps.any isBreak then foldBreaks (breaksIn gaps) else gaps

/-- Some line of the gaps is followed by a document separator. -/
def markerBehind (gaps rest : List Char) : Bool :=
  gaps.getLast?.any isBreak && ({ rest, column := 0 } : Cursor).isMarker

/-- The text of a scalar between single quotes, in reverse on top of `taken`, and
the rest behind it.  A quote inside is written twice. -/
def singleQuoted (taken : List Char) : (fuel : Nat) → List Char → Option (List Char × List Char)
  | 0, _ => none
  | fuel + 1, text =>
    match text with
    | [] => none
    | '\'' :: '\'' :: rest => singleQuoted ('\'' :: taken) fuel rest
    | '\'' :: rest => some (taken.reverse, rest)
    | c :: rest =>
      if isGap c then
        let gaps := text.takeWhile isGap
        let after := text.dropWhile isGap
        if markerBehind gaps after then none
        else singleQuoted ((quotedGap gaps).reverse ++ taken) fuel after
      else singleQuoted (c :: taken) fuel rest

/-- Characters by the letter behind a backslash. -/
def escapeLetters : List (Char × Nat) :=
  [('0', 0), ('a', 7), ('b', 8), ('t', 9), ('\t', 9), ('n', 10), ('v', 11), ('f', 12),
    ('r', 13), ('e', 27), (' ', 32), ('"', 34), ('/', 47), ('\\', 92), ('N', 0x85),
    ('_', 0xA0), ('L', 0x2028), ('P', 0x2029)]

/-- The number of hexadecimal digits behind a letter. -/
def escapeDigits? (c : Char) : Option Nat :=
  match c with
  | 'x' => some 2
  | 'u' => some 4
  | 'U' => some 8
  | _ => none

/-- The character of an escape, and the rest; `c` follows the backslash. -/
def escape? (c : Char) (rest : List Char) : Option (Char × List Char) :=
  match escapeLetters.find? fun entry => entry.1 = c with
  | some (_, code) => some (Char.ofNat code, rest)
  | none => do
    let (code, after) ← Json.takeHex? (← escapeDigits? c) rest
    some (Json.charOfUnit code, after)

/-- The text of a scalar between double quotes, as for single ones.  A backslash
before a line end joins the lines. -/
def doubleQuoted (taken : List Char) : (fuel : Nat) → List Char → Option (List Char × List Char)
  | 0, _ => none
  | fuel + 1, text =>
    match text with
    | [] => none
    | '"' :: rest => some (taken.reverse, rest)
    | ['\\'] => none
    | '\\' :: c :: rest =>
      if isBreak c then
        let gaps := rest.takeWhile isGap
        let after := rest.dropWhile isGap
        if markerBehind (c :: gaps) after then none
        else doubleQuoted ((breaksIn gaps).reverse ++ taken) fuel after
      else
        match escape? c rest with
        | some (d, after) => doubleQuoted (d :: taken) fuel after
        | none => none
    | c :: rest =>
      if isGap c then
        let gaps := text.takeWhile isGap
        let after := text.dropWhile isGap
        if markerBehind gaps after then none
        else doubleQuoted ((quotedGap gaps).reverse ++ taken) fuel after
      else doubleQuoted (c :: taken) fuel rest

/-- The marks of lists and mappings in brackets. -/
def isFlowMark (c : Char) : Bool := c = ',' || c = '[' || c = ']' || c = '{' || c = '}'

/-- A plain scalar ends before this character. -/
def endsPlain (inFlow : Bool) (c : Char) (rest : List Char) : Bool :=
  isGap c || (c = ':' && (gapHere rest || (inFlow && rest.head?.any isFlowMark))) ||
    (inFlow && (isFlowMark c || c = '?'))

/-- A plain scalar on one line, up to a space. -/
def plainWord (inFlow : Bool) : List Char → List Char
  | [] => []
  | c :: rest => if endsPlain inFlow c rest then [] else c :: plainWord inFlow rest

/-- The signs that no plain scalar starts with. -/
def indicators : List Char :=
  ['-', '?', ':', ',', '[', ']', '{', '}', '#', '&', '*', '!', '|', '>', '\'', '"', '%', '@',
    '`']

/-- A plain scalar starts here.  A hyphen, and outside brackets a question mark or a
colon, may start one when no gap follows. -/
def startsPlain (inFlow : Bool) : List Char → Bool
  | [] => false
  | c :: rest =>
    (!isGap c && !indicators.contains c) ||
      (!gapHere rest && (c = '-' || (!inFlow && (c = '?' || c = ':'))))

/-- A plain scalar: its text, the place behind it and the spaces after it, and
whether line ends lie inside it, and between it and the place. -/
structure Plain where
  text : List Char
  cursor : Cursor
  isMultiline : Bool
  crossed : Bool
deriving Repr

/-- Go on with a plain scalar: `taken` is its text so far and `gap` what stands
between that and the next word.  Lines that go on with it are indented by at least
`indent`. -/
def plainFrom (inFlow : Bool) (indent : Nat) (taken gap : List Char) (multiline crossed : Bool)
    (cursor : Cursor) : (fuel : Nat) → Plain
  | 0 => { text := taken, cursor, isMultiline := multiline, crossed }
  | fuel + 1 =>
    let stop : Plain := { text := taken, cursor, isMultiline := multiline, crossed }
    let word := plainWord inFlow cursor.rest
    if word.isEmpty || cursor.rest.head? = some '#' then stop
    else
      let text := taken ++ gap ++ word
      let after := cursor.forward word.length
      let isSpace (c : Char) : Bool := c = ' '
      let spaces := after.rest.takeWhile isSpace
      let here := after.forward spaces.length
      if here.rest.head?.any isBreak then
        let gaps := here.rest.takeWhile fun c => isSpace c || isBreak c
        let there := here.forward gaps.length
        let ended : Plain :=
          { text, cursor := there, isMultiline := multiline || crossed, crossed := true }
        if there.isMarker || (!inFlow && there.column < indent) then ended
        else
          plainFrom inFlow indent text (foldBreaks (breaksIn gaps)) (multiline || crossed) true
            there fuel
      else if spaces.isEmpty then
        { text, cursor := here, isMultiline := multiline || crossed, crossed := false }
      else plainFrom inFlow indent text spaces (multiline || crossed) false here fuel

def plain (inFlow : Bool) (indent : Nat) (cursor : Cursor) : Plain :=
  plainFrom inFlow indent [] [] false false cursor (cursor.rest.length + 1)

end ComponentAtlas.Yaml
