/-
Module: ComponentAtlas.Proofs.Props.Trailing
Purpose: Which other member a comment behind a member describes, in a body and in a syntax
  tree.
Main exports:
  Follows, exists_commentDescribes_iff, exists_commentDescribes_other_iff,
  trailing_comment_describes
-/
import ComponentAtlas.Proofs.Props.NodeAttachment
import ComponentAtlas.Proofs.Props.Standing

namespace ComponentAtlas.Props

open ComponentAtlas.Text
open ComponentAtlas.Source

/-!
A comment behind a member, on the line of the member.
-/

/-- The comment stands behind the last piece of code before it, on the same line: the pieces in
between have no code, and no line break ends the one or the other. -/
structure Follows (place : CommentPlace) (piece : Piece) : Prop where
  hasCode : piece.code ≠ []
  ahead : ∃ before gap, place.before.map cutPiece = before ++ piece :: gap ∧
    (∀ other ∈ gap, other.code = []) ∧
    ∀ other ∈ piece :: gap, staysOnLine other.separator
  filler : place.lead.all Lexeme.isFiller

/-- The next member behind the piece of the comment takes a comment that waits. -/
def nextAwaits (place : CommentPlace) : Bool :=
  ((readingAhead place).endLine place.separator).awaits (laterPieces place)

theorem memberDescribed?_eq (place : CommentPlace) :
    memberDescribed? place =
      if comments (textOf place.tail) = [] then
        if (pieceBehind place).startsMember then some (readingAhead place).drafts.length
        else if (pieceBehind place).code ≠ [] then none
        else if (readingAhead place).takesLine then some ((readingAhead place).drafts.length - 1)
        else if nextAwaits place then some (readingAhead place).drafts.length
        else none
      else none :=
  rfl

/-- No line break has ended the latest member. -/
def Reading.IsOpen (reading : Reading) : Prop := ∀ draft ∈ reading.drafts.head?, draft.openLine

section

variable {reading : Reading} {piece : Piece} {gap : List Piece}

theorem Reading.isOpen_take_of_code (hasCode : piece.code ≠ [])
    (noIndex : piece.code.head? ≠ some '[') (stays : staysOnLine piece.separator) :
    (reading.take piece).IsOpen := by
  unfold take
  split
  case h_1 noCode => exact absurd noCode hasCode
  case h_2 isIndex => exact absurd (congrArg List.head? isIndex) noIndex
  case h_3 =>
    split
    · rintro draft ⟨⟩
      exact stays
    · obtain ⟨_ | ⟨latest, rest⟩, waits⟩ := reading
      · rintro draft ⟨⟩
      · rintro draft ⟨⟩
        exact stays

theorem Reading.IsOpen.take (isOpen : reading.IsOpen) (noCode : piece.code = [])
    (stays : staysOnLine piece.separator) : (reading.take piece).IsOpen := by
  have goesOn (between : Reading) : between.endLine piece.separator = between := by
    obtain ⟨_ | ⟨latest, rest⟩, waits⟩ := between
    · rfl
    · simp [endLine, stays]
  rw [take_of_noCode noCode, goesOn]
  obtain ⟨_ | ⟨latest, rest⟩, waits⟩ := reading
  · cases piece.comment <;> exact isOpen
  · have latestOpen : latest.openLine := isOpen latest rfl
    cases piece.comment with
    | none => exact isOpen
    | some words =>
        simp only [takeComment]
        split
        · rintro draft ⟨⟩
          exact latestOpen
        · exact isOpen

theorem Reading.IsOpen.foldl (isOpen : reading.IsOpen) (noCode : ∀ piece ∈ gap, piece.code = [])
    (stays : ∀ piece ∈ gap, staysOnLine piece.separator) :
    (gap.foldl Reading.take reading).IsOpen := by
  induction gap generalizing reading with
  | nil => exact isOpen
  | cons piece gap ih =>
      rw [List.forall_mem_cons] at noCode stays
      exact ih (isOpen.take noCode.1 stays.1) noCode.2 stays.2

end

section

variable {place : CommentPlace} {comment : List Char} {piece : Piece} {own : Draft}
  {others : List Draft}

theorem isOpen_readingAhead (follows : Follows place piece)
    (noIndex : piece.code.head? ≠ some '[') : (readingAhead place).IsOpen := by
  obtain ⟨before, gap, isAhead, noCode, stays⟩ := follows.ahead
  rw [List.forall_mem_cons] at stays
  rw [readingAhead, isAhead, List.foldl_append, List.foldl_cons]
  exact (Reading.isOpen_take_of_code follows.hasCode noIndex stays.1).foldl noCode stays.2

/-- Behind blanks and comments, a comment is lost unless the piece goes on with a member, the
latest member takes it, or the next one does. -/
theorem exists_commentDescribes_iff (holds : place.Holds memberSeparation comment)
    (filler : place.lead.all Lexeme.isFiller) :
    (∃ member, CommentDescribes place member) ↔
      comments (textOf place.tail) = [] ∧
        ((pieceBehind place).startsMember ∨
          (pieceBehind place).code = [] ∧
            ((readingAhead place).takesLine ∨ nextAwaits place)) := by
  simp only [commentDescribes_iff holds filler, memberDescribed?_eq]
  by_cases last : comments (textOf place.tail) = []
  · by_cases starts : (pieceBehind place).startsMember
    · simp [last, starts]
    · by_cases code : (pieceBehind place).code = []
      · by_cases takes : (readingAhead place).takesLine <;> simp [last, starts, code, takes]
      · simp [last, starts, code]
  · simp [last]

/-- Behind a member, on its line, a comment describes another one when that one starts behind
the comment on the line, or when the member is described already and the next one takes the
comment. -/
theorem exists_commentDescribes_other_iff (holds : place.Holds memberSeparation comment)
    (follows : Follows place piece) (noIndex : piece.code.head? ≠ some '[')
    (isAhead : (readingAhead place).drafts = own :: others) :
    (∃ member, member ≠ others.length ∧ CommentDescribes place member) ↔
      comments (textOf place.tail) = [] ∧
        ((pieceBehind place).startsMember ∨
          (pieceBehind place).code = [] ∧ own.description.isSome ∧ nextAwaits place) := by
  have isOpen : own.openLine := isOpen_readingAhead follows noIndex own (by rw [isAhead]; rfl)
  have takes : (readingAhead place).takesLine = own.description.isNone := by
    rw [Reading.takesLine, isAhead, List.head?_cons, Option.any_some, isOpen, Bool.true_and]
  simp only [commentDescribes_iff holds follows.filler, memberDescribed?_eq, takes, isAhead]
  by_cases last : comments (textOf place.tail) = []
  · by_cases starts : (pieceBehind place).startsMember
    · simp [last, starts]
    · by_cases code : (pieceBehind place).code = []
      · cases own.description <;> simp [last, starts, code]
      · simp [last, starts, code]
  · simp [last]

end

/-- Which member a comment describes, in a body and in the syntax tree of a member list.

Each comment of a body stands in a place.  Among the code of a piece it describes no member but
the one that the piece starts.  Behind blanks and comments it describes one exactly when no
comment follows it in its piece and either a member starts behind it there, or there is no more
code and the latest member takes it or the next one awaits it.  When it follows a member on its
line, it describes another one exactly when one starts behind it in its piece, or the member is
described already and the next one awaits the comment.

In a syntax tree a comment describes a prop exactly when the latest one takes it or the next one
awaits it; behind a prop, on its last line, it describes another one exactly when that prop is
described already and the next node is a prop. -/
theorem trailing_comment_describes (text comment : List Char) (isComment : IsComment comment)
    (met : .comment comment ∈ lexemes text) (script : List UInt8) (list note : Node)
    (ahead behind : List Node)
    (isList : list.children.filter Node.isNamed = ahead ++ note :: behind)
    (isNote : note.kind = "comment") :
    (∃ place : CommentPlace, place.Holds memberSeparation comment ∧ place.script comment = text) ∧
    (∀ place : CommentPlace, place.Holds memberSeparation comment → place.script comment = text →
      (¬ place.lead.all Lexeme.isFiller → ∀ member, CommentDescribes place member →
        member = (readingAhead place).drafts.length ∧ (ownPiece place comment).startsMember) ∧
      (place.lead.all Lexeme.isFiller →
        ((∃ member, CommentDescribes place member) ↔
          comments (textOf place.tail) = [] ∧
            ((pieceBehind place).startsMember ∨
              (pieceBehind place).code = [] ∧
                ((readingAhead place).takesLine ∨ nextAwaits place)))) ∧
      ∀ piece own others, Follows place piece → piece.code.head? ≠ some '[' →
        (readingAhead place).drafts = own :: others →
        ((∃ member, member ≠ others.length ∧ CommentDescribes place member) ↔
          comments (textOf place.tail) = [] ∧
            ((pieceBehind place).startsMember ∨
              (pieceBehind place).code = [] ∧ own.description.isSome ∧ nextAwaits place))) ∧
    (∀ words, commentText (note.text script) = some words →
      propsOf script list = propsTelling script ahead note.extent.firstRow behind words) ∧
    ((∃ prop, NodeDescribes script ahead note.extent.firstRow behind prop) ↔
      (listingOf script ahead).takesRow note.extent.firstRow ∨
        (listingOf script ahead).awaits script behind) ∧
    ∀ front member gap own others, ahead = front ++ member :: gap →
      (∀ node ∈ gap, node.kind = "comment") → member.isProp →
      note.extent.firstRow = member.extent.endRow →
      (listingOf script ahead).props = own :: others →
      ((∃ prop, prop ≠ others.length ∧
          NodeDescribes script ahead note.extent.firstRow behind prop) ↔
        own.description.isSome ∧ behind.head?.any Node.isProp) := by
  refine ⟨exists_place memberSeparation isComment met, ?_,
    fun words => propsOf_eq_propsTelling isList isNote,
    exists_nodeDescribes_iff script ahead _ behind, ?_⟩
  · intro place holds _
    refine ⟨fun code member describes => startsMember_of_commentDescribes holds code describes,
      exists_commentDescribes_iff holds, ?_⟩
    intro piece own others follows noIndex isAhead
    exact exists_commentDescribes_other_iff holds follows noIndex isAhead
  · rintro front member gap own others rfl areComments isProp sameRow isAhead
    rw [sameRow]
    exact exists_nodeDescribes_other_iff areComments isProp isAhead behind

/-- The place of a comment behind a member that is described already. -/
def placeBehindTitle : CommentPlace :=
  { before :=
      [{ parts := [.comment "/** The title */".toList], separator := some '\n' },
        { parts := "title: string".toList.map .code, separator := some ';' }]
    lead := [.code ' ']
    tail := []
    separator := some '\n'
    after :=
      [{ parts := "count: number".toList.map .code, separator := some ';' },
        { parts := [], separator := some '\n' }, { parts := [], separator := none }]
    lineBreaks := 0 }

/-- The same body, and its member list in a syntax tree. -/
def titleScript : List UInt8 :=
  Utf8.encode "/** The title */\ntitle: string; // shown in bold\ncount: number;\n".toList

def commentNode (firstByte endByte row : Nat) : Node :=
  .node "comment" { firstByte, endByte, firstRow := row, endRow := row } true none []

/-- The node of a property: its name, and its type with the colon. -/
def propertyNode (firstByte colon endByte row : Nat) : Node :=
  .node "property_signature" { firstByte, endByte, firstRow := row, endRow := row } true none
    [.node "property_identifier" { firstByte, endByte := colon, firstRow := row, endRow := row } true
        (some "name") [],
      .node "type_annotation" { firstByte := colon, endByte, firstRow := row, endRow := row } true
        (some "type") []]

def semicolonNode (byte row : Nat) : Node :=
  .node ";" { firstByte := byte, endByte := byte + 1, firstRow := row, endRow := row } false none []

def titleList : Node :=
  .node "interface_body" { firstByte := 0, endByte := 64, firstRow := 0, endRow := 3 } true none
    [commentNode 0 16 0, propertyNode 17 22 30 1, semicolonNode 30 1, commentNode 32 48 1,
      propertyNode 49 54 62 2, semicolonNode 62 2]

theorem placeBehindTitle_holds :
    placeBehindTitle.Holds memberSeparation "// shown in bold".toList where
  isComment := .line (by decide)
  divided := by decide +kernel
  sameLines := by decide +kernel

theorem placeBehindTitle_follows :
    Follows placeBehindTitle
      { code := "title: string".toList, comment := none, separator := some ';' } where
  hasCode := by decide
  ahead := ⟨[cutPiece { parts := [.comment "/** The title */".toList], separator := some '\n' }], [],
    by decide +kernel, by simp, by simp; decide⟩
  filler := by decide

/-- Behind a member with a comment in front of it, a comment on its line describes the next
member, in the body and in its syntax tree. -/
theorem trailing_comment_describes_count :
    (placeBehindTitle.Holds memberSeparation "// shown in bold".toList ∧
        ∃ member, member ≠ 0 ∧ CommentDescribes placeBehindTitle member) ∧
      (∃ prop, prop ≠ 0 ∧ NodeDescribes titleScript [commentNode 0 16 0, propertyNode 17 22 30 1] 1
        [propertyNode 49 54 62 2] prop) ∧
      membersOf (placeBehindTitle.script "// shown in bold".toList) =
        propsOf titleScript titleList ∧
      (propsOf titleScript titleList).map (fun prop => (prop.name, prop.description)) =
        [("title", some "The title"), ("count", some "shown in bold")] := by
  have inBody : (readingAhead placeBehindTitle).drafts =
      [{ name := "title".toList
         optional := false
         type := " string".toList
         separator := some ';'
         description := some "The title".toList
         openLine := true }] := by
    decide +kernel
  have inTree : (listingOf titleScript [commentNode 0 16 0, propertyNode 17 22 30 1]).props =
      [{ name := "title"
         type := "string"
         required := true
         description := some "The title" }] := by
    decide +kernel
  obtain ⟨-, body, -, -, tree⟩ := trailing_comment_describes
    (placeBehindTitle.script "// shown in bold".toList) "// shown in bold".toList
    placeBehindTitle_holds.isComment (by decide +kernel) titleScript titleList
    (commentNode 32 48 1) [commentNode 0 16 0, propertyNode 17 22 30 1] [propertyNode 49 54 62 2]
    rfl rfl
  refine ⟨⟨placeBehindTitle_holds, ?_⟩, ?_, by decide +kernel, by decide +kernel⟩
  · refine ((body placeBehindTitle placeBehindTitle_holds rfl).2.2 _ _ _
      placeBehindTitle_follows (by decide) inBody).2 ?_
    exact ⟨by decide +kernel, .inr ⟨by decide +kernel, rfl, by decide +kernel⟩⟩
  · exact (tree [commentNode 0 16 0] (propertyNode 17 22 30 1) [] _ _ rfl (by simp) rfl rfl
      inTree).2 ⟨rfl, rfl⟩

end ComponentAtlas.Props
