/-
Module: ComponentAtlas.Props.Members
Purpose: The members of a props type, read from its text.
Main exports:
  Member, member?, Draft, Reading, membersOf
-/
import ComponentAtlas.Component.Basic
import ComponentAtlas.Props.Comment
import ComponentAtlas.Source.Segment

namespace ComponentAtlas.Props

open ComponentAtlas.Text
open ComponentAtlas.Source

/-!
The body of a props type is divided at commas, semicolons and line breaks.  Each
segment is one of four things: a member, the continuation of the type of the
member before it, an index signature, or only a comment.  A comment on its own
line belongs to the next member; a comment behind a member on the same line
belongs to that member.
-/

def memberSeparation : Separation := { separators := [',', ';', '\n'], typeArguments := true }

/-- The first segment of a member: its name, its question mark, and the start of
its type. -/
structure Member where
  name : List Char
  optional : Bool
  type : List Char
deriving Repr, DecidableEq

def startsName (c : Char) : Bool := c.isAlpha || c = '_' || c = '$'

def continuesName (c : Char) : Bool := isWord c || c = '$'

/-- A name between two quotes of one kind, with its quotes, and the rest. -/
def quotedName? (quote : Char) (rest : List Char) : Option (List Char × List Char) :=
  match rest.takeWhile (· ≠ quote), rest.dropWhile (· ≠ quote) with
  | [], _ => none
  | _, [] => none
  | inner, _ :: after => some (quote :: inner ++ [quote], after)

/-- The name in front of a text, and the rest. -/
def name? (text : List Char) : Option (List Char × List Char) :=
  match text with
  | [] => none
  | c :: rest =>
    if isLineQuote c then quotedName? c rest
    else if startsName c then
      some (c :: rest.takeWhile continuesName, rest.dropWhile continuesName)
    else none

/-- The characters with which a type starts behind a name. -/
def startsType (c : Char) : Bool := c = ':' || c = '(' || c = '<'

/-- A name, an optional question mark, and a type behind a colon; the type of a
method keeps its parenthesis. -/
def plainMember? (text : List Char) : Option Member := do
  let (name, afterName) ← name? text
  let (optional, rest) :=
    match trimLeft afterName with
    | '?' :: after => (true, trimLeft after)
    | after => (false, after)
  match rest with
  | [] => none
  | c :: type =>
    if startsType c then
      some { name := trimWhile isLineQuote name, optional, type := if c = ':' then type else rest }
    else none

/-- The rest after the word `readonly` and blanks. -/
def afterReadonly? (text : List Char) : Option (List Char) :=
  match after? "readonly".toList text with
  | some rest => if rest.head?.any isBlank then some (trimLeft rest) else none
  | none => none

/-- The member that a segment without comments starts.  The word `readonly` may
stand in front, or be the name itself. -/
def member? (code : List Char) : Option Member :=
  ((afterReadonly? code).bind plainMember?).or (plainMember? code)

/-- A member whose type may still go on. -/
structure Draft where
  name : List Char
  optional : Bool
  /-- The type as far as it was read. -/
  type : List Char
  /-- The separator that ended its last segment. -/
  separator : Option Char
  description : Option (List Char)
  /-- No line break has ended the member yet. -/
  openLine : Bool
deriving Repr, DecidableEq

def staysOnLine (separator : Option Char) : Bool := separator ≠ some '\n'

/-- The type of a member as it is shown; a missing one is `any`. -/
def shownType (type : List Char) : List Char :=
  let shown := trim (dropRightWhile (fun c => c = ';' || c = ',') (trim (collapse type)))
  if shown.isEmpty then "any".toList else shown

/-- The prop of a member that was read to its end. -/
def Draft.prop (draft : Draft) : PropDecl :=
  { name := String.ofList draft.name
    type := String.ofList (shownType draft.type)
    required := !draft.optional
    description := draft.description.map String.ofList }

/-- What was read of a body: the members so far, the latest first, and the
comment that waits for the next member. -/
structure Reading where
  drafts : List Draft := []
  waiting : Option (List Char) := none
deriving Repr, DecidableEq

/-- A segment as the reading of members sees it. -/
structure Piece where
  /-- The code of the segment, without comments and outer blanks. -/
  code : List Char
  /-- The text of its last comment. -/
  comment : Option (List Char)
  separator : Option Char
deriving Repr, DecidableEq

/-- The code and the last comment of a segment. -/
def Piece.of (segment : Segment) : Piece :=
  { code := trim (withoutComments segment.text)
    comment := (comments segment.text).getLast?.bind commentText
    separator := segment.separator }

/-- A comment behind a member on its line describes it unless it is described
already; any other comment waits for the next member. -/
def Reading.takeComment (reading : Reading) (comment : Option (List Char)) : Reading :=
  match comment with
  | none => reading
  | some _ =>
    match reading.drafts with
    | draft :: rest =>
      if draft.openLine && draft.description.isNone then
        { reading with drafts := { draft with description := comment } :: rest }
      else { reading with waiting := comment }
    | [] => { reading with waiting := comment }

/-- A line break closes the line of the latest member. -/
def Reading.endLine (reading : Reading) (separator : Option Char) : Reading :=
  match reading.drafts with
  | draft :: rest =>
    if staysOnLine separator then reading
    else { reading with drafts := { draft with openLine := false } :: rest }
  | [] => reading

/-- Text that starts no member continues the type of the latest one. -/
def Reading.continueType (reading : Reading) (piece : Piece) : Reading :=
  match reading.drafts with
  | draft :: rest =>
    let longer : Draft :=
      { draft with
        type := draft.type ++ draft.separator.toList ++ piece.code
        separator := piece.separator
        openLine := staysOnLine piece.separator }
    { reading with drafts := longer :: rest }
  | [] => reading

/-- A new member takes its own comment, or else the one that waits. -/
def Reading.add (reading : Reading) (member : Member) (piece : Piece) : Reading :=
  let draft : Draft :=
    { name := member.name
      optional := member.optional
      type := member.type
      separator := piece.separator
      description := piece.comment.or reading.waiting
      openLine := staysOnLine piece.separator }
  { drafts := draft :: reading.drafts, waiting := none }

def Reading.take (reading : Reading) (piece : Piece) : Reading :=
  match piece.code with
  | [] => (reading.takeComment piece.comment).endLine piece.separator
  -- An index signature declares no prop.
  | '[' :: _ => reading
  | code =>
    match member? code with
    | some member => reading.add member piece
    | none => reading.continueType piece

def Reading.of (body : List Char) : Reading :=
  ((segments memberSeparation body).map Piece.of).foldl Reading.take {}

/-- The props that the body of a props type declares. -/
def membersOf (body : List Char) : List PropDecl :=
  (Reading.of body).drafts.reverse.map Draft.prop

end ComponentAtlas.Props
