/-
Module: ComponentAtlas.Proofs.Props.BodyLine
Purpose: A body written line by line, and what its members are when other words wait in front
  of it.
Main exports:
  IsPiece, membersOf_of_isPiece, BodyLine, Reading.foldl_take_atop, readLines, displaces,
  props_readLines_iff, membersOf_bodyText
-/
import ComponentAtlas.Proofs.Props.Attachment
import ComponentAtlas.Proofs.Source.Depth

namespace ComponentAtlas.Props

open ComponentAtlas.Text
open ComponentAtlas.Source

/-!
A body written piece by piece is divided into these pieces.
-/

/-- No separator divides the text of the segment, and its own separator ends it. -/
structure IsPiece (segment : Segment) : Prop where
  whole : IsWhole memberSeparation none segment.text
  ended : ∃ separator ∈ [',', ';', '\n'], segment.separator = some separator

section

variable {previous : Option Char} {pieces : List Segment}

theorem segmentsFrom_of_isPiece (arePieces : ∀ piece ∈ pieces, IsPiece piece)
    (starts : opensTypeArguments previous = false) :
    segmentsFrom memberSeparation previous (pieces.flatMap Segment.whole) = pieces := by
  induction pieces generalizing previous with
  | nil =>
      rw [List.flatMap_nil, segmentsFrom_eq isWhole_nil]
      rfl
  | cons piece pieces ih =>
      rw [List.forall_mem_cons] at arePieces
      obtain ⟨⟨isWhole, separator, listed, isSeparator⟩, others⟩ := arePieces
      have restarts : opensTypeArguments (some separator) = false := by
        simp only [List.mem_cons, List.not_mem_nil, or_false] at listed
        rcases listed with rfl | rfl | rfl <;> decide
      have divided : (piece :: pieces).flatMap Segment.whole =
          piece.text ++ separator :: pieces.flatMap Segment.whole := by
        simp [Segment.whole, isSeparator]
      have isFirst : ({ text := piece.text, separator := some separator } : Segment) = piece := by
        rw [← isSeparator]
      rw [divided, segmentsFrom_append (isWhole.restart starts.symm) (divides_separator listed),
        ih others restarts, isFirst]

theorem membersOf_of_isPiece (arePieces : ∀ piece ∈ pieces, IsPiece piece) :
    membersOf (pieces.flatMap Segment.whole) =
      ((pieces.map Piece.of).foldl Reading.take {}).props := by
  have divided : segments memberSeparation (pieces.flatMap Segment.whole) = pieces :=
    segmentsFrom_of_isPiece arePieces rfl
  rw [membersOf, Reading.of, divided]
  rfl

end

/-!
Lines of a body.
-/

/-- The words of the last comment of a text. -/
def wordsOf (text : List Char) : Option (List Char) := (comments text).getLast?.bind commentText

/-- A line of a body. -/
inductive BodyLine where
  /-- A member up to its semicolon, and the blanks and comments behind the semicolon. -/
  | member (code behind : List Char)
  /-- Blanks and comments. -/
  | note (text : List Char)
deriving Repr, DecidableEq

/-- The pieces of the line. -/
def BodyLine.segments : BodyLine → List Segment
  | .member code behind => [⟨code, some ';'⟩, ⟨behind, some '\n'⟩]
  | .note text => [⟨text, some '\n'⟩]

/-- The line as it is written, with its line break. -/
def BodyLine.text : BodyLine → List Char
  | .member code behind => code ++ ';' :: behind ++ ['\n']
  | .note text => text ++ ['\n']

/-- Blanks and comments that no separator divides. -/
structure IsNote (text : List Char) : Prop where
  whole : IsWhole memberSeparation none text
  filler : isFiller text

/-- The line is what it should be: its code is one member that is complete. -/
inductive BodyLine.IsWritten : BodyLine → Prop where
  | member {code behind : List Char} (whole : IsWhole memberSeparation none code)
      (starts : (Piece.of ⟨code, some ';'⟩).startsMember) (note : IsNote behind) :
      IsWritten (.member code behind)
  | note {text : List Char} (note : IsNote text) : IsWritten (.note text)

def BodyLine.isMember : BodyLine → Bool
  | .member _ _ => true
  | .note _ => false

section

variable {line : BodyLine} {text : List Char}

theorem BodyLine.flatMap_whole_segments (line : BodyLine) :
    line.segments.flatMap Segment.whole = line.text := by
  cases line <;> simp [segments, Segment.whole, BodyLine.text]

theorem BodyLine.IsWritten.isPiece (written : line.IsWritten) :
    ∀ piece ∈ line.segments, IsPiece piece := by
  cases written with
  | member whole _ note =>
      exact List.forall_mem_cons.mpr ⟨⟨whole, ';', by simp, rfl⟩,
        List.forall_mem_singleton.mpr ⟨note.whole, '\n', by simp, rfl⟩⟩
  | note note => exact List.forall_mem_singleton.mpr ⟨note.whole, '\n', by simp, rfl⟩

theorem IsNote.piece_of (note : IsNote text) (separator : Option Char) :
    Piece.of { text := text, separator := separator } =
      { code := [], comment := wordsOf text, separator := separator } := by
  have noCode : trim (withoutComments text) = [] :=
    trim_eq_nil_iff.mpr (by rw [isAllBlank_withoutComments, note.filler])
  rw [Piece.of, noCode]
  rfl

end

/-!
What one line does to the reading.
-/

section

variable {reading : Reading} {older : List Draft} {piece : Piece} {pieces : List Piece}
  {text : List Char}

/-- A line break has ended the latest member. -/
def LineEnded (drafts : List Draft) : Prop := ∀ draft ∈ drafts.head?, draft.openLine = false

/-- The reading behind other members. -/
def Reading.atop (reading : Reading) (older : List Draft) : Reading :=
  { reading with drafts := reading.drafts ++ older }

/-- The piece is not told which members were read before it: it starts one, or has no
code. -/
def Piece.standsAlone (piece : Piece) : Prop := piece.startsMember ∨ piece.code = []

theorem Reading.takeComment_atop (ended : LineEnded older) (comment : Option (List Char)) :
    (reading.atop older).takeComment comment = (reading.takeComment comment).atop older := by
  cases comment with
  | none => rfl
  | some words =>
      obtain ⟨_ | ⟨draft, rest⟩, waits⟩ := reading
      · exact takeComment_of_not_takesLine (by
          cases older with
          | nil => rfl
          | cons latest older => simp [takesLine, atop, ended latest rfl]) words
      · simp only [atop, List.cons_append, takeComment]
        split <;> rfl

theorem Reading.endLine_atop (ended : LineEnded older) (separator : Option Char) :
    (reading.atop older).endLine separator = (reading.endLine separator).atop older := by
  obtain ⟨_ | ⟨draft, rest⟩, waits⟩ := reading
  · cases older with
    | nil => rfl
    | cons latest older =>
        have isEnded : latest.openLine = false := ended latest rfl
        have same : { latest with openLine := false } = latest := by rw [← isEnded]
        simp only [atop, List.nil_append, endLine, same]
        split <;> rfl
  · simp only [atop, List.cons_append, endLine]
    split <;> rfl

/-- A line break behind the end of the line changes nothing. -/
theorem Reading.endLine_of_lineEnded (ended : LineEnded reading.drafts)
    (separator : Option Char) : reading.endLine separator = reading :=
  @endLine_atop { waiting := reading.waiting } reading.drafts ended separator

theorem Reading.take_atop (ended : LineEnded older) (alone : piece.standsAlone) :
    (reading.atop older).take piece = (reading.take piece).atop older := by
  rcases alone with starts | noCode
  · obtain ⟨member, isMember⟩ := Option.isSome_iff_exists.mp starts
    rw [take_of_member isMember, take_of_member isMember]
    rfl
  · rw [take_of_noCode noCode, take_of_noCode noCode, takeComment_atop ended, endLine_atop ended]

/-- Members that stand on their own are read as if nothing stood before them, but for the
comment that waits. -/
theorem Reading.foldl_take_atop (ended : LineEnded older)
    (alone : ∀ piece ∈ pieces, piece.standsAlone) :
    pieces.foldl take (reading.atop older) = (pieces.foldl take reading).atop older := by
  induction pieces generalizing reading with
  | nil => rfl
  | cons piece pieces ih =>
      rw [List.forall_mem_cons] at alone
      rw [List.foldl_cons, take_atop ended alone.1, ih alone.2, List.foldl_cons]

/-- A line of comments leaves its words waiting. -/
theorem Reading.take_note (note : IsNote text) (ended : LineEnded reading.drafts) :
    reading.take (Piece.of { text := text, separator := some '\n' }) =
      { reading with waiting := (wordsOf text).or reading.waiting } := by
  obtain ⟨drafts, waits⟩ := reading
  have alone : Piece.standsAlone { code := [], comment := wordsOf text, separator := some '\n' } :=
    .inr rfl
  have same := @take_atop { waiting := waits } drafts _ ended alone
  rw [note.piece_of]
  refine same.trans ?_
  cases wordsOf text <;> rfl

theorem lineEnded_take_note (note : IsNote text) (reading : Reading) :
    LineEnded (reading.take (Piece.of { text := text, separator := some '\n' })).drafts := by
  rw [note.piece_of, Reading.take_of_noCode rfl]
  generalize reading.takeComment (wordsOf text) = between
  obtain ⟨_ | ⟨draft, rest⟩, waits⟩ := between
  · rintro latest ⟨⟩
  · rintro latest ⟨⟩
    rfl

theorem isNote_nil : IsNote [] := ⟨isWhole_nil, by simp [isFiller]⟩

end

/-!
The lines of a body, with one comment or another that waits before them.
-/

/-- What is read of the lines, behind a comment that waits. -/
def readLines (waiting : Option (List Char)) (lines : List BodyLine) : Reading :=
  ((lines.flatMap BodyLine.segments).map Piece.of).foldl Reading.take { waiting := waiting }

/-- The next member takes the words in place of the comment that waits without them, or in
place of the one behind its own semicolon, which then waits in its turn. -/
def displaces (waiting : Option (List Char)) (words : List Char) : List BodyLine → Bool
  | [] => false
  | .note text :: later => (wordsOf text).isNone && displaces waiting words later
  | .member code behind :: later =>
    (wordsOf code).isNone &&
      match waiting, wordsOf behind with
      | some other, _ => words ≠ other
      | none, none => true
      | none, some trailing => words ≠ trailing || displaces none trailing later

/-- The member of a line, with the words that describe it. -/
def lineDraft (member : Member) (code : List Char) (description : Option (List Char)) : Draft :=
  { member.draft (Piece.of ⟨code, some ';'⟩) with description := description, openLine := false }

section

variable {waiting other : Option (List Char)} {words : List Char} {line : BodyLine}
  {lines : List BodyLine} {code behind text : List Char} {reading : Reading}

theorem BodyLine.IsWritten.standsAlone (written : line.IsWritten) :
    ∀ piece ∈ line.segments.map Piece.of, piece.standsAlone := by
  cases written with
  | member whole starts note =>
      exact List.forall_mem_cons.mpr ⟨.inl starts,
        List.forall_mem_singleton.mpr (.inr (by rw [note.piece_of]))⟩
  | note note => exact List.forall_mem_singleton.mpr (.inr (by rw [note.piece_of]))

theorem BodyLine.IsWritten.lineEnded (written : line.IsWritten) (reading : Reading) :
    LineEnded ((line.segments.map Piece.of).foldl Reading.take reading).drafts := by
  cases written with
  | member whole starts note => exact lineEnded_take_note note _
  | note note => exact lineEnded_take_note note _

theorem standsAlone_of_isWritten (written : ∀ line ∈ lines, line.IsWritten) :
    ∀ piece ∈ (lines.flatMap BodyLine.segments).map Piece.of, piece.standsAlone := by
  intro piece member
  obtain ⟨segment, isSegment, rfl⟩ := List.mem_map.mp member
  obtain ⟨line, isLine, inLine⟩ := List.mem_flatMap.mp isSegment
  exact (written line isLine).standsAlone _ (List.mem_map_of_mem inLine)

theorem lineEnded_readLines (written : ∀ line ∈ lines, line.IsWritten) :
    LineEnded (readLines waiting lines).drafts := by
  cases lines using List.reverseRecOn with
  | nil => rintro draft ⟨⟩
  | append_singleton lines line =>
      rw [readLines, List.flatMap_append, List.map_append, List.foldl_append,
        List.flatMap_singleton]
      exact (written line (by simp)).lineEnded _

/-- What the lines are read to behind a reading whose last line has ended. -/
theorem foldl_take_lines (written : ∀ line ∈ lines, line.IsWritten)
    (ended : LineEnded reading.drafts) :
    ((lines.flatMap BodyLine.segments).map Piece.of).foldl Reading.take reading =
      (readLines reading.waiting lines).atop reading.drafts :=
  @Reading.foldl_take_atop { waiting := reading.waiting } reading.drafts _ ended
    (standsAlone_of_isWritten written)

theorem readLines_note (note : IsNote text) (waiting : Option (List Char))
    (later : List BodyLine) :
    readLines waiting (.note text :: later) = readLines ((wordsOf text).or waiting) later := by
  have first := @Reading.take_note { waiting := waiting } text note (by rintro draft ⟨⟩)
  rw [readLines, List.flatMap_cons, List.map_append, List.foldl_append, BodyLine.segments,
    List.map_singleton, List.foldl_cons, List.foldl_nil, first]
  rfl

/-- A member takes the comment before its semicolon, else the one that waits, else the one
behind the semicolon; that one waits if it is not taken. -/
theorem readLines_member (starts : (Piece.of ⟨code, some ';'⟩).startsMember) (note : IsNote behind)
    (written : ∀ line ∈ lines, line.IsWritten) :
    ∃ member, ∀ waiting, readLines waiting (.member code behind :: lines) =
      (readLines (if ((wordsOf code).or waiting).isSome then wordsOf behind else none) lines).atop
        [lineDraft member code (((wordsOf code).or waiting).or (wordsOf behind))] := by
  obtain ⟨member, isMember⟩ := Option.isSome_iff_exists.mp starts
  refine ⟨member, fun waiting => ?_⟩
  have first : ({ waiting := waiting } : Reading).take (Piece.of ⟨code, some ';'⟩) =
      { drafts :=
          [{ member.draft (Piece.of ⟨code, some ';'⟩) with
              description := (wordsOf code).or waiting
              openLine := true }] } := by
    rw [Reading.take_of_member isMember]
    rfl
  have second : (({ waiting := waiting } : Reading).take (Piece.of ⟨code, some ';'⟩)).take
        (Piece.of ⟨behind, some '\n'⟩) =
      { drafts := [lineDraft member code (((wordsOf code).or waiting).or (wordsOf behind))]
        waiting := if ((wordsOf code).or waiting).isSome then wordsOf behind else none } := by
    rw [first, note.piece_of, Reading.take_of_noCode rfl]
    cases (wordsOf code).or waiting <;> cases wordsOf behind <;> rfl
  rw [readLines, List.flatMap_cons, List.map_append, List.foldl_append, BodyLine.segments,
    List.map_cons, List.map_singleton, List.foldl_cons, List.foldl_cons, List.foldl_nil, second]
  refine foldl_take_lines written ?_
  rintro draft ⟨⟩
  rfl

theorem Reading.props_atop (reading : Reading) (older : List Draft) :
    (reading.atop older).props = older.reverse.map Draft.prop ++ reading.props := by
  simp [Reading.props, atop]

theorem lineDraft_prop_inj {member : Member} :
    (lineDraft member code waiting).prop = (lineDraft member code other).prop ↔
      waiting = other := by
  refine ⟨fun same => ?_, fun same => by rw [same]⟩
  have sameDescription := congrArg PropDecl.description same
  simp only [Draft.prop, lineDraft] at sameDescription
  exact Option.map_injective (fun _ _ => String.ofList_inj.mp) sameDescription

/-- Other words that wait make a difference exactly when they displace something. -/
theorem props_readLines_iff (written : ∀ line ∈ lines, line.IsWritten)
    (waiting : Option (List Char)) (words : List Char) :
    (readLines (some words) lines).props = (readLines waiting lines).props ↔
      displaces waiting words lines = false := by
  induction lines generalizing waiting words with
  | nil => exact iff_of_true rfl rfl
  | cons line later ih =>
      rw [List.forall_mem_cons] at written
      obtain ⟨isLine, others⟩ := written
      cases isLine with
      | note note =>
          rw [readLines_note note, readLines_note note]
          cases isWords : wordsOf _ with
          | none => simpa [displaces, isWords] using ih others waiting words
          | some own => simp [displaces, isWords]
      | @member code behind whole starts note =>
          obtain ⟨member, isRead⟩ := readLines_member starts note others
          rw [isRead, isRead, Reading.props_atop, Reading.props_atop]
          simp only [List.reverse_singleton, List.map_singleton, List.singleton_append,
            List.cons.injEq, lineDraft_prop_inj]
          -- Words of its own or words that waited hide the comment behind the semicolon, which
          -- waits in both readings then; else it waits in the one reading only.
          cases isOwn : wordsOf code with
          | some own => simp [displaces, isOwn]
          | none =>
              cases waiting with
              | some other => simp [displaces, isOwn]
              | none =>
                  cases isTrailing : wordsOf behind with
                  | none => simp [displaces, isOwn, isTrailing]
                  | some trailing =>
                      have later := ih others none trailing
                      simp [displaces, isOwn, isTrailing, later]

/-- What waits changes only descriptions. -/
theorem map_props_readLines (written : ∀ line ∈ lines, line.IsWritten)
    (waiting other : Option (List Char)) :
    (readLines waiting lines).props.map (fun prop => (prop.name, prop.type, prop.required)) =
      (readLines other lines).props.map fun prop => (prop.name, prop.type, prop.required) := by
  induction lines generalizing waiting other with
  | nil => rfl
  | cons line later ih =>
      rw [List.forall_mem_cons] at written
      obtain ⟨isLine, others⟩ := written
      cases isLine with
      | note note =>
          rw [readLines_note note, readLines_note note]
          exact ih others _ _
      | member whole starts note =>
          obtain ⟨member, isRead⟩ := readLines_member starts note others
          rw [isRead, isRead, Reading.props_atop, Reading.props_atop, List.map_append,
            List.map_append, ih others]
          rfl

/-- Nothing is read only of lines without members. -/
theorem drafts_readLines_eq_nil_iff (written : ∀ line ∈ lines, line.IsWritten)
    (waiting : Option (List Char)) :
    (readLines waiting lines).drafts = [] ↔ ∀ line ∈ lines, line.isMember = false := by
  induction lines generalizing waiting with
  | nil => exact iff_of_true rfl (by simp)
  | cons line later ih =>
      rw [List.forall_mem_cons] at written ⊢
      obtain ⟨isLine, others⟩ := written
      cases isLine with
      | note note =>
          rw [readLines_note note, ih others]
          simp [BodyLine.isMember]
      | member whole starts note =>
          obtain ⟨member, isRead⟩ := readLines_member starts note others
          rw [isRead]
          simp [Reading.atop, BodyLine.isMember]

end

/-!
The members of a body written line by line.
-/

def bodyText (lines : List BodyLine) : List Char := lines.flatMap BodyLine.text

section

variable {lines before after : List BodyLine}

theorem flatMap_whole_lines (lines : List BodyLine) :
    (lines.flatMap BodyLine.segments).flatMap Segment.whole = bodyText lines := by
  rw [List.flatMap_assoc, bodyText]
  simp only [BodyLine.flatMap_whole_segments]

theorem isPiece_of_isWritten (written : ∀ line ∈ lines, line.IsWritten) :
    ∀ piece ∈ lines.flatMap BodyLine.segments, IsPiece piece := by
  intro piece member
  obtain ⟨line, isLine, inLine⟩ := List.mem_flatMap.mp member
  exact (written line isLine).isPiece piece inLine

/-- The lines before are read first, and those behind with the comment that waits then. -/
theorem membersOf_bodyText (isBefore : ∀ line ∈ before, line.IsWritten)
    (isAfter : ∀ line ∈ after, line.IsWritten) :
    membersOf (bodyText before ++ bodyText after) =
      (readLines none before).props ++ (readLines (readLines none before).waiting after).props := by
  have arePieces : ∀ piece ∈ before.flatMap BodyLine.segments ++ after.flatMap BodyLine.segments,
      IsPiece piece :=
    List.forall_mem_append.mpr ⟨isPiece_of_isWritten isBefore, isPiece_of_isWritten isAfter⟩
  have read := membersOf_of_isPiece arePieces
  rw [List.flatMap_append, flatMap_whole_lines, flatMap_whole_lines, List.map_append,
    List.foldl_append] at read
  rw [read]
  exact (congrArg Reading.props (foldl_take_lines isAfter (lineEnded_readLines isBefore))).trans
    (Reading.props_atop _ _)

end

end ComponentAtlas.Props
