/-
Module: ComponentAtlas.Proofs.Props.Misreading
Purpose: The descriptions of the members of a body without comments: where a literal holds
  the mark of a comment, a description comes about.
Main exports:
  AreLexemes.exists_literal, comment_notMem_lexemes, beginsInLiteral_of_mem_segments,
  Reading.descriptions_foldl_take, descriptions_of_withoutComments
-/
import ComponentAtlas.Proofs.Props.Standing
import ComponentAtlas.Proofs.Source.Depth

namespace ComponentAtlas.Source

open ComponentAtlas.Text

/-!
Code goes on behind a literal only when its quote closed the literal, or a line break ended
it.
-/

section

variable {quote c d : Char} {next : Option Char} {frame : Frame} {below above : List Frame}
  {between : Move} {inside rest text : List Char} {parts more : List Lexeme}

/-- As long as the quote of a literal is not met where nothing is open within it, the literal
stays open. -/
theorem move_of_literal (isFrames : frame :: below = above ++ [.literal quote])
    (moved : move frame below c next = some between) :
    (c = quote ∧ between = { frames := [] }) ∨
      ∃ above, between.frames = above ++ [.literal quote] := by
  cases above with
  | nil =>
      obtain ⟨rfl, rfl⟩ := List.cons.inj isFrames
      by_cases escapes : c = '\\'
      · rw [move, if_pos escapes] at moved
        cases moved
        exact .inr ⟨[], rfl⟩
      by_cases closes : c = quote
      · rw [move, if_neg escapes, if_pos closes] at moved
        cases moved
        exact .inl ⟨closes, rfl⟩
      by_cases opens : c = '$' ∧ quote = '`' ∧ next = some '{'
      · refine .inr ⟨[.bracket], ?_⟩
        grind [move]
      · refine .inr ⟨[], ?_⟩
        grind [move]
  | cons first above =>
      rw [List.cons_append] at isFrames
      obtain ⟨rfl, rfl⟩ := List.cons.inj isFrames
      rw [move_above _ _ _ _ _ (by simp)] at moved
      cases isMove : move frame above c next with
      | none =>
          rw [isMove] at moved
          cases moved
          exact .inr ⟨[], rfl⟩
      | some later =>
          rw [isMove] at moved
          cases moved
          exact .inr ⟨later.frames, rfl⟩

/-- A literal that is closed where a text ends is closed by the last character, whatever is
open within it. -/
theorem getLast?_of_closing (above : List Frame) (pair : Bool) (ne_nil : text ≠ [])
    (closed : closing (above ++ [.literal quote]) pair text = some text.length) :
    text.getLast? = some quote := by
  induction text generalizing above pair with
  | nil => exact absurd rfl ne_nil
  | cons c text ih =>
      have later (above : List Frame) (pair : Bool)
          (closed : pass 1 (closing (above ++ [.literal quote]) pair text) =
            some (text.length + 1)) : (c :: text).getLast? = some quote := by
        obtain ⟨answer, isAnswer, isCount⟩ := pass_eq_some.mp closed
        obtain rfl := Nat.add_right_cancel isCount
        have notEmpty : text ≠ [] := by
          rintro rfl
          simpa using (closing_nil isAnswer).1
        rw [getLast?_cons_of_ne_nil c notEmpty]
        exact ih above pair notEmpty isAnswer
      cases pair with
      | true =>
          rw [closing_pair] at closed
          exact later above false closed
      | false =>
          obtain ⟨frame, below, isFrames⟩ :
              ∃ frame below, frame :: below = above ++ [.literal quote] := by
            cases above with
            | nil => exact ⟨_, _, rfl⟩
            | cons first above => exact ⟨_, _, rfl⟩
          rw [← isFrames, closing_cons] at closed
          cases moved : move frame below c text.head? with
          | none =>
              rw [moved] at closed
              cases closed
          | some between =>
              rw [moved] at closed
              rcases move_of_literal isFrames moved with ⟨rfl, rfl⟩ | ⟨still, isStill⟩
              · obtain ⟨answer, isAnswer, isCount⟩ := pass_eq_some.mp closed
                obtain rfl := Nat.add_right_cancel isCount
                have noMore : text.length = 0 := by simpa [closing] using isAnswer.symm
                rw [List.length_eq_zero_iff.mp noMore]
                rfl
              · dsimp only at closed
                rw [isStill] at closed
                exact later still between.pair closed

/-- Behind a literal whose quote did not close it, a line break or the end of the script
comes next. -/
theorem getLast?_of_literalLength (notBreak : rest.head? ≠ some '\n') (notEnd : rest ≠ [])
    (ends : literalLength quote (inside ++ rest) = inside.length) :
    inside.getLast? = some quote := by
  rw [literalLength] at ends
  cases closed : closing [.literal quote] false (inside ++ rest) with
  | none =>
      rw [closed, Option.getD_none, List.length_append] at ends
      exact absurd (List.length_eq_zero_iff.mp (by omega)) notEnd
  | some count =>
      rw [closed, Option.getD_some] at ends
      subst ends
      rcases closing_cases closed with within | ⟨isBreak, -⟩
      · have ne_nil : inside ≠ [] := by
          rintro rfl
          cases within
        exact getLast?_of_closing [] false ne_nil within
      · exact absurd isBreak notBreak

/-- The mark of a comment stands in a literal or behind it, not across its end. -/
theorem mark_cases {lead behind : List Char} (isQuote : isQuote quote) (notBreak : d ≠ '\n')
    (ends : literalLength quote (inside ++ behind) = inside.length)
    (divided : quote :: inside ++ behind = lead ++ '/' :: d :: rest) :
    (∃ later, lead = quote :: inside ++ later ∧ behind = later ++ '/' :: d :: rest) ∨
      ∃ outer, quote :: inside = lead ++ '/' :: d :: outer ∧ rest = outer ++ behind := by
  rcases List.append_eq_append_iff.mp divided with
    ⟨later, isLead, isBehind⟩ | ⟨outer, isLiteral, isRest⟩
  · exact .inl ⟨later, isLead, isBehind⟩
  · cases outer with
    | nil => exact .inl ⟨[], by simpa using isLiteral.symm, isRest.symm⟩
    | cons first outer =>
        obtain ⟨rfl, isMore⟩ := List.cons.inj isRest
        have isMore : d :: rest = outer ++ behind := isMore
        cases outer with
        | cons second outer =>
            obtain ⟨rfl, isOuter⟩ := List.cons.inj isMore
            exact .inr ⟨outer, isLiteral, isOuter⟩
        | nil =>
            -- The slash would be the quote that closes the literal.
            have isBehind : behind = d :: rest := isMore.symm
            have last := getLast?_of_literalLength (by simp [isBehind, notBreak])
              (by simp [isBehind]) ends
            have isSlash : (quote :: inside).getLast? = some '/' := by simp [isLiteral]
            have ne_nil : inside ≠ [] := by
              rintro rfl
              cases last
            rw [getLast?_cons_of_ne_nil quote ne_nil, last] at isSlash
            rw [Option.some.inj isSlash] at isQuote
            cases isQuote

/-- Outside comments the mark of a comment stands only in literals. -/
theorem AreLexemes.exists_literal (areLexemes : AreLexemes parts)
    (noComment : ∀ comment, .comment comment ∉ parts) {lead : List Char}
    (isMark : d = '/' ∨ d = '*') (divided : textOf parts = lead ++ '/' :: d :: rest) :
    ∃ front inner outer back, parts = front ++ .literal (inner ++ '/' :: d :: outer) :: back ∧
      lead = textOf front ++ inner ∧ rest = outer ++ textOf back := by
  induction areLexemes generalizing lead with
  | nil => simp at divided
  | @comment more inside _ _ _ => exact absurd List.mem_cons_self (noComment _)
  | @code more c notQuote alone later ih =>
      simp only [List.mem_cons, not_or] at noComment
      cases lead with
      | nil =>
          obtain ⟨rfl, isRest⟩ := List.cons.inj divided
          have isRest : textOf more = d :: rest := isRest
          have keeps := alone rfl
          rw [isRest] at keeps
          rcases isMark with rfl | rfl
          · exact absurd rfl keeps.1
          · exact absurd rfl keeps.2
      | cons first lead =>
          obtain ⟨rfl, isRest⟩ := List.cons.inj divided
          obtain ⟨front, inner, outer, back, rfl, rfl, isBehind⟩ :=
            ih (fun comment => (noComment comment).2) isRest
          exact ⟨.code c :: front, inner, outer, back, rfl, rfl, isBehind⟩
  | @literal more quote inside isQuote ends later ih =>
      simp only [List.mem_cons, not_or] at noComment
      have notBreak : d ≠ '\n' := by rcases isMark with rfl | rfl <;> decide
      rcases mark_cases isQuote notBreak ends divided with
        ⟨lead, rfl, isRest⟩ | ⟨outer, isLiteral, isRest⟩
      · obtain ⟨front, inner, outer, back, rfl, rfl, isBehind⟩ :=
          ih (fun comment => (noComment comment).2) isRest
        exact ⟨.literal (quote :: inside) :: front, inner, outer, back, rfl,
          by simp [Lexeme.text], isBehind⟩
      · exact ⟨[], lead, outer, more, by rw [isLiteral, List.nil_append], rfl, isRest⟩

/-- Where removing comments changes nothing, there are none. -/
theorem comment_notMem_lexemes (bare : withoutComments text = text) (comment : List Char) :
    .comment comment ∉ lexemes text := by
  have remaining : lexemes text = (lexemes text).flatMap Lexeme.remains := by
    conv_lhs => rw [← bare]
    exact lexemes_withoutComments text
  intro member
  rw [remaining] at member
  obtain ⟨part, -, isLeft⟩ := List.mem_flatMap.mp member
  cases part <;> simp [Lexeme.remains] at isLeft

end

/-- A segment holds only lexemes of the whole script. -/
theorem exists_parts_of_mem_segments {style : Separation} {text : List Char} {segment : Segment}
    (member : segment ∈ segments style text) :
    ∃ parts, AreLexemes parts ∧ segment.text = textOf parts ∧ parts ⊆ lexemes text := by
  have isWhole := flatMap_whole_cuts style {} (lexemes text)
  obtain ⟨cut, isCut, rfl⟩ := List.mem_map.mp (List.mem_of_mem_filter member)
  have areLexemes : AreLexemes cut.parts :=
    .of_mem_cuts (isWhole.symm ▸ areLexemes_lexemes text) cut isCut
  refine ⟨cut.parts, areLexemes, rfl, fun part isPart => ?_⟩
  rw [← isWhole]
  exact List.mem_flatMap.mpr ⟨cut, isCut, List.mem_append_left _ isPart⟩

end ComponentAtlas.Source

namespace ComponentAtlas.Props

open ComponentAtlas.Text
open ComponentAtlas.Source

/-- The comment begins in one of the literals, with both characters of its mark, and goes on
as the text does. -/
def BeginsInLiteral (parts : List Lexeme) (comment : List Char) : Prop :=
  ∃ front inner outer back, parts = front ++ .literal (inner ++ outer) :: back ∧
    (['/', '/'] <+: outer ∨ ['/', '*'] <+: outer) ∧ comment <+: outer ++ textOf back

section

variable {text body comment : List Char} {parts : List Lexeme} {segment : Segment}

theorem exists_mark_of_mem_comments (member : comment ∈ comments text) :
    ∃ lead d rest, text = lead ++ '/' :: d :: rest ∧ (d = '/' ∨ d = '*') ∧
      comment <+: '/' :: d :: rest := by
  obtain ⟨⟨place, found⟩, isHit, rfl⟩ := List.mem_map.mp member
  obtain ⟨lead, rest, size, rfl, -, seen⟩ := mem_hits isHit
  unfold commentHere at seen
  obtain ⟨size, isSize, isTaken⟩ := Option.map_eq_some_iff.mp seen
  cases isTaken
  split at isSize
  · exact ⟨lead, '*', _, rfl, .inr rfl, List.take_prefix _ _⟩
  · exact ⟨lead, '/', _, rfl, .inl rfl, List.take_prefix _ _⟩
  · cases isSize

/-- In a text without comments, what the scan takes for one begins in a literal. -/
theorem beginsInLiteral_of_mem_comments (areLexemes : AreLexemes parts)
    (noComment : ∀ comment, .comment comment ∉ parts) (member : comment ∈ comments (textOf parts)) :
    BeginsInLiteral parts comment := by
  obtain ⟨lead, d, rest, divided, isMark, starts⟩ := exists_mark_of_mem_comments member
  obtain ⟨front, inner, outer, back, isParts, -, rfl⟩ :=
    areLexemes.exists_literal noComment isMark divided
  refine ⟨front, inner, '/' :: d :: outer, back, isParts, ?_, starts⟩
  rcases isMark with rfl | rfl
  · exact .inl ⟨outer, rfl⟩
  · exact .inr ⟨outer, rfl⟩

theorem BeginsInLiteral.not_markFree (begins : BeginsInLiteral parts comment) :
    ∃ literal, .literal literal ∈ parts ∧ ¬ MarkFree literal := by
  obtain ⟨front, inner, outer, back, rfl, isMark, -⟩ := begins
  refine ⟨inner ++ outer, by simp, fun markFree => ?_⟩
  have isSuffix : outer <:+: inner ++ outer := (List.suffix_append inner outer).isInfix
  rcases isMark with line | block
  · exact markFree.1 (line.isInfix.trans isSuffix)
  · exact markFree.2 (block.isInfix.trans isSuffix)

theorem beginsInLiteral_of_mem_segments (bare : withoutComments body = body)
    (isSegment : segment ∈ segments memberSeparation body)
    (member : comment ∈ comments segment.text) :
    ∃ parts, textOf parts = segment.text ∧ parts ⊆ lexemes body ∧
      BeginsInLiteral parts comment := by
  obtain ⟨parts, areLexemes, isText, within⟩ := exists_parts_of_mem_segments isSegment
  rw [isText] at member
  exact ⟨parts, isText.symm, within, beginsInLiteral_of_mem_comments areLexemes
    (fun other isPart => comment_notMem_lexemes bare other (within isPart)) member⟩

/-- A piece without code has no literal, and so no comment. -/
theorem Piece.comment_of_noCode (bare : withoutComments body = body)
    (isSegment : segment ∈ segments memberSeparation body)
    (noCode : (Piece.of segment).code = []) : (Piece.of segment).comment = none := by
  obtain ⟨parts, areLexemes, isText, within⟩ := exists_parts_of_mem_segments isSegment
  have bareText : withoutComments segment.text = segment.text := by
    rw [isText, areLexemes.withoutComments_textOf, textOf]
    refine List.flatMap_congr fun part isPart => ?_
    cases part with
    | code c => rfl
    | literal text => rfl
    | comment text => exact absurd (within isPart) (comment_notMem_lexemes bare text)
  have blank : isAllBlank segment.text := by
    rw [← bareText]
    exact trim_eq_nil_iff.mp noCode
  have noSlash : '/' ∉ segment.text := fun member =>
    absurd (List.all_eq_true.mp blank '/' member) (by decide)
  rw [Piece.of, comments_of_markFree (.of_not_mem noSlash)]
  rfl

end

/-!
While no comment waits, a member is described by the comment of its first segment.
-/

section

variable {reading : Reading} {piece : Piece} {pieces : List Piece}

theorem Reading.continueType_descriptions (reading : Reading) (piece : Piece) :
    (reading.continueType piece).waiting = reading.waiting ∧
      (reading.continueType piece).drafts.map Draft.description =
        reading.drafts.map Draft.description := by
  obtain ⟨_ | ⟨draft, rest⟩, waits⟩ := reading <;> exact ⟨rfl, rfl⟩

theorem Reading.endLine_descriptions (reading : Reading) (separator : Option Char) :
    (reading.endLine separator).waiting = reading.waiting ∧
      (reading.endLine separator).drafts.map Draft.description =
        reading.drafts.map Draft.description := by
  obtain ⟨_ | ⟨draft, rest⟩, waits⟩ := reading
  · exact ⟨rfl, rfl⟩
  · simp only [endLine]
    split <;> exact ⟨rfl, rfl⟩

/-- A piece adds the description of the member that it starts, and changes no other. -/
theorem Reading.take_descriptions (noneWaits : reading.waiting = none)
    (noComment : piece.code = [] → piece.comment = none) :
    (reading.take piece).waiting = none ∧
      (reading.take piece).drafts.map Draft.description =
        (if piece.startsMember then [piece.comment] else []) ++
          reading.drafts.map Draft.description := by
  by_cases starts : piece.startsMember
  · obtain ⟨member, isMember⟩ := Option.isSome_iff_exists.mp starts
    rw [take_of_member isMember, if_pos starts, add, noneWaits, Option.or_none]
    exact ⟨rfl, rfl⟩
  · rw [if_neg starts, List.nil_append]
    by_cases noCode : piece.code = []
    · rw [take_of_noCode noCode, noComment noCode]
      obtain ⟨waits, described⟩ := reading.endLine_descriptions piece.separator
      exact ⟨waits.trans noneWaits, described⟩
    · rcases take_of_code (Bool.eq_false_of_not_eq_true starts) noCode with same | continues
      · rw [same]
        exact ⟨noneWaits, rfl⟩
      · rw [continues]
        obtain ⟨waits, described⟩ := reading.continueType_descriptions piece
        exact ⟨waits.trans noneWaits, described⟩

theorem Reading.descriptions_foldl_take (noneWaits : reading.waiting = none)
    (noComment : ∀ piece ∈ pieces, piece.code = [] → piece.comment = none) :
    (pieces.foldl take reading).drafts.reverse.map Draft.description =
      reading.drafts.reverse.map Draft.description ++
        (pieces.filter Piece.startsMember).map Piece.comment := by
  induction pieces generalizing reading with
  | nil => simp
  | cons piece pieces ih =>
      rw [List.forall_mem_cons] at noComment
      obtain ⟨waits, described⟩ := take_descriptions noneWaits noComment.1
      rw [List.foldl_cons, ih waits noComment.2, List.map_reverse, described]
      by_cases starts : piece.startsMember <;> simp [starts]

end

/-- In a body without comments each member is described by what the scan takes for the last
comment of its first segment, if that has words.  What it takes for one begins in a literal,
so without the mark of a comment in a literal there are no descriptions. -/
theorem descriptions_of_withoutComments {body : List Char} (bare : withoutComments body = body) :
    (membersOf body).map PropDecl.description =
        (((segments memberSeparation body).map Piece.of).filter Piece.startsMember).map
          (fun piece => piece.comment.map String.ofList) ∧
    ((∀ prop ∈ membersOf body, prop.description = none) ↔
      ∀ segment ∈ segments memberSeparation body, (Piece.of segment).startsMember →
        (comments segment.text).getLast?.bind commentText = none) ∧
    (∀ segment ∈ segments memberSeparation body, ∀ comment ∈ comments segment.text,
      ∃ parts, textOf parts = segment.text ∧ parts ⊆ lexemes body ∧
        BeginsInLiteral parts comment) ∧
    ((∀ literal, .literal literal ∈ lexemes body → MarkFree literal) →
      ∀ prop ∈ membersOf body, prop.description = none) := by
  have noComment : ∀ piece ∈ (segments memberSeparation body).map Piece.of,
      piece.code = [] → piece.comment = none := by
    intro piece member
    obtain ⟨segment, isSegment, rfl⟩ := List.mem_map.mp member
    exact Piece.comment_of_noCode bare isSegment
  have described := @Reading.descriptions_foldl_take {} _ rfl noComment
  have descriptions : (membersOf body).map PropDecl.description =
      (((segments memberSeparation body).map Piece.of).filter Piece.startsMember).map
        (fun piece => piece.comment.map String.ofList) := by
    have shown : PropDecl.description ∘ Draft.prop =
        Option.map String.ofList ∘ Draft.description := rfl
    rw [membersOf, List.map_map, shown, ← List.map_map, Reading.of, described]
    simp
  have noneDescribed : (∀ prop ∈ membersOf body, prop.description = none) ↔
      ∀ segment ∈ segments memberSeparation body, (Piece.of segment).startsMember →
        (comments segment.text).getLast?.bind commentText = none := by
    have each : (∀ prop ∈ membersOf body, prop.description = none) ↔
        ∀ description ∈ (membersOf body).map PropDecl.description, description = none := by
      rw [List.forall_mem_map]
    simp only [each, descriptions, List.forall_mem_map, List.forall_mem_filter,
      Option.map_eq_none_iff]
    rfl
  have begins : ∀ segment ∈ segments memberSeparation body, ∀ comment ∈ comments segment.text,
      ∃ parts, textOf parts = segment.text ∧ parts ⊆ lexemes body ∧
        BeginsInLiteral parts comment :=
    fun segment isSegment comment member => beginsInLiteral_of_mem_segments bare isSegment member
  refine ⟨descriptions, noneDescribed, begins, fun markFree => noneDescribed.mpr ?_⟩
  intro segment isSegment _
  have noComments : comments segment.text = [] := by
    refine List.eq_nil_iff_forall_not_mem.mpr fun comment member => ?_
    obtain ⟨parts, -, within, inLiteral⟩ := begins segment isSegment comment member
    obtain ⟨literal, isPart, notFree⟩ := inLiteral.not_markFree
    exact notFree (markFree literal (within isPart))
  rw [noComments]
  rfl

/-- An address in a literal type describes its member. -/
theorem descriptions_of_address :
    withoutComments "url: 'http://example.com';\nhome: '/';\n".toList =
        "url: 'http://example.com';\nhome: '/';\n".toList ∧
      membersOf "url: 'http://example.com';\nhome: '/';\n".toList =
        [{ name := "url"
           type := "'http://example.com'"
           required := true
           description := some "example.com'" },
          { name := "home", type := "'/'", required := true }] ∧
      ¬ ∀ literal, .literal literal ∈ lexemes "url: 'http://example.com';\nhome: '/';\n".toList →
        MarkFree literal := by
  have bare : withoutComments "url: 'http://example.com';\nhome: '/';\n".toList =
      "url: 'http://example.com';\nhome: '/';\n".toList := by decide +kernel
  have read : membersOf "url: 'http://example.com';\nhome: '/';\n".toList =
      [{ name := "url"
         type := "'http://example.com'"
         required := true
         description := some "example.com'" },
        { name := "home", type := "'/'", required := true }] := by decide +kernel
  refine ⟨bare, read, fun markFree => ?_⟩
  have none := (descriptions_of_withoutComments bare).2.2.2 markFree
  rw [read] at none
  exact absurd (none _ List.mem_cons_self) (by decide)

end ComponentAtlas.Props
