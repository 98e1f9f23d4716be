/-
Module: ComponentAtlas.Proofs.Props.Standing
Purpose: The member that a comment describes from its place in a body.
Main exports:
  comments_of_filler, isEndless_tellsAt, CommentDescribes, ownPiece_of_filler,
  commentDescribes_iff, startsMember_of_commentDescribes
-/
import Mathlib.Data.Set.Finite.Range
import ComponentAtlas.Proofs.Props.Attachment
import ComponentAtlas.Proofs.Source.CommentPlace

namespace ComponentAtlas.Props

open ComponentAtlas.Text
open ComponentAtlas.Source

/-!
The comments of a segment.  The scan for them does not know literals, but in front of the code
it meets the comments that the lexemes are.
-/

section

variable {text rest comment : List Char} {more lead tail : List Lexeme} {c : Char}

/-- The scan does not look at the character before a place. -/
theorem map_hitsFrom_commentHere (before other : Option Char) (offset place skip : Nat)
    (text : List Char) :
    (hitsFrom commentHere before offset skip text).map (·.2) =
      (hitsFrom commentHere other place skip text).map (·.2) := by
  induction text generalizing before other offset place skip with
  | nil => rfl
  | cons c text ih =>
      cases skip with
      | succ more => exact ih ..
      | zero =>
          have same : commentHere before (c :: text) = commentHere other (c :: text) := rfl
          simp only [hitsFrom, same]
          cases commentHere other (c :: text) with
          | none => exact ih ..
          | some found => exact congrArg (found.1 :: ·) (ih ..)

theorem comments_cons (notSlash : c ≠ '/') (text : List Char) :
    comments (c :: text) = comments text := by
  have fails : commentHere none (c :: text) = none :=
    commentHere_of_noMark _ ⟨fun mark => notSlash (List.cons_prefix_cons.mp mark).1.symm,
      fun mark => notSlash (List.cons_prefix_cons.mp mark).1.symm⟩
  simp only [comments, hits, hitsFrom, fails]
  exact map_hitsFrom_commentHere ..

theorem commentHere_of_areLexemes (areLexemes : AreLexemes (.comment comment :: more))
    (isComment : IsComment comment) (before : Option Char) :
    commentHere before (comment ++ textOf more) = some (comment, comment.length) := by
  cases isComment with
  | @block inside unended =>
      have close := @throughClose?_of_unended (textOf more) inside unended
      have divided : inside ++ '*' :: '/' :: textOf more =
          (inside ++ ['*', '/']) ++ textOf more := by simp
      have size : inside.length + 2 = (inside ++ ['*', '/']).length := by simp
      unfold commentHere
      simp only [List.cons_append, List.append_assoc, List.nil_append, close, Option.map_some]
      simp only [List.take_succ_cons, divided, size, List.take_left, List.length_cons]
  | @line inside onLine =>
      have plain : ∀ c ∈ inside, decide (c ≠ '\n') := fun c member => by
        simpa using fun isBreak : c = '\n' => onLine (isBreak ▸ member)
      have stop : ∀ c ∈ (textOf more).head?, decide (c ≠ '\n') = false := by
        obtain none | ⟨_, -, -, isBreak⟩ | ⟨_, other, -⟩ := areLexemes.comment_cases
        · simp [none]
        · simp [isBreak]
        · simp at other
      have taken := (takeWhile_append_stop plain stop).1
      unfold commentHere
      simp only [List.cons_append, taken, Option.map_some]
      simp

theorem comments_append_comment (areLexemes : AreLexemes (.comment comment :: more))
    (isComment : IsComment comment) :
    comments (comment ++ textOf more) = comment :: comments (textOf more) := by
  have ne_nil : comment ≠ [] := by cases isComment <;> simp
  rw [comments, hits, hitsFrom_hit ne_nil (commentHere_of_areLexemes areLexemes isComment none),
    List.map_cons]
  exact congrArg _ (map_hitsFrom_commentHere ..)

/-- Behind blanks and comments a comment is found, and then what follows it. -/
theorem comments_of_filler (areLexemes : AreLexemes (lead ++ .comment comment :: tail))
    (isComment : IsComment comment) (filler : lead.all Lexeme.isFiller) :
    ∃ earlier, comments (textOf (lead ++ .comment comment :: tail)) =
      earlier ++ comment :: comments (textOf tail) := by
  induction lead with
  | nil => exact ⟨[], comments_append_comment areLexemes isComment⟩
  | cons part lead ih =>
      simp only [List.all_cons, Bool.and_eq_true] at filler
      obtain ⟨earlier, found⟩ := ih areLexemes.tail filler.2
      rw [List.cons_append] at areLexemes ⊢
      cases part with
      | literal text => exact absurd filler.1 (by simp [Lexeme.isFiller])
      | code c =>
          have blank : isBlank c := filler.1
          have notSlash : c ≠ '/' := ne_of_isBlank blank rfl
          exact ⟨earlier, by rw [textOf_cons, Lexeme.text, List.singleton_append,
            comments_cons notSlash, found]⟩
      | comment other =>
          have followed : textOf (lead ++ .comment comment :: tail) ≠ [] := by
            cases isComment <;> simp [Lexeme.text]
          exact ⟨other :: earlier, by rw [textOf_cons, Lexeme.text,
            comments_append_comment areLexemes (areLexemes.isComment followed), found,
            List.cons_append]⟩

end

/-!
Among the block comments of so many lines there is no end of words.
-/

/-- A word, and so many line breaks. -/
def filling (count lineBreaks : Nat) : List Char :=
  List.replicate (count + 1) 'a' ++ List.replicate lineBreaks '\n'

section

variable (count lineBreaks : Nat)

theorem unended_filling : ¬ ['*', '/'] <:+: filling count lineBreaks := by
  intro isInfix
  have member : '*' ∈ filling count lineBreaks := isInfix.subset (by simp)
  simp [filling] at member

theorem count_filling : (filling count lineBreaks).count '\n' = lineBreaks := by
  simp [filling, List.count_replicate]

theorem lines_filling : lines (filling count lineBreaks) =
    List.replicate (count + 1) 'a' :: List.replicate (lineBreaks - 1) [] := by
  have breaks (more : Nat) : lines (List.replicate more '\n') = List.replicate more [] := by
    induction more with
    | zero => rfl
    | succ more ih => exact congrArg ([] :: ·) ih
  induction count with
  | zero =>
      have first : lines (filling 0 lineBreaks) =
          consLine 'a' (lines (List.replicate lineBreaks '\n')) := rfl
      rw [first, breaks]
      cases lineBreaks <;> rfl
  | succ count ih =>
      have first : lines (filling (count + 1) lineBreaks) =
          consLine 'a' (lines (filling count lineBreaks)) := rfl
      rw [first, ih]
      rfl

theorem withoutMarks_block {c : Char} (notStar : c ≠ '*') (inside : List Char) :
    withoutMarks ('/' :: '*' :: c :: inside ++ ['*', '/']) = c :: inside := by
  have trimmed : trim ('/' :: '*' :: c :: inside ++ ['*', '/']) =
      '/' :: '*' :: c :: inside ++ ['*', '/'] := by
    refine trim_eq_self ⟨by rintro d ⟨⟩; rfl, ?_⟩
    rw [List.getLast?_append_of_ne_nil _ (List.cons_ne_nil _ _)]
    rintro d ⟨⟩
    rfl
  have notDoc : withoutStart "/**".toList ('/' :: '*' :: c :: inside ++ ['*', '/']) =
      '/' :: '*' :: c :: inside ++ ['*', '/'] := by
    simp [withoutStart, after?, Ne.symm notStar]
  have opened : withoutStart "/*".toList ('/' :: '*' :: c :: inside ++ ['*', '/']) =
      c :: inside ++ ['*', '/'] := by
    rw [withoutStart]
    exact congrArg (Option.getD · _) (after?_append ['/', '*'] (c :: inside ++ ['*', '/']))
  have closed : withoutEnd "*/".toList (c :: inside ++ ['*', '/']) = c :: inside := by
    simp [withoutEnd, before?, List.isSuffixOf_iff_suffix]
  unfold withoutMarks
  rw [trimmed]
  exact (congrArg (fun body => withoutEnd "*/".toList (withoutStart "/*".toList body)) notDoc).trans
    ((congrArg (withoutEnd "*/".toList) opened).trans closed)

theorem commentText_filling :
    commentText ('/' :: '*' :: filling count lineBreaks ++ ['*', '/']) =
      some (List.replicate (count + 1) 'a') := by
  have word : commentLine (List.replicate (count + 1) 'a') = List.replicate (count + 1) 'a' := by
    have trimmed : trim (List.replicate (count + 1) 'a') = List.replicate (count + 1) 'a' := by
      refine trim_eq_self ⟨?_, ?_⟩
      · simp [List.head?_replicate]; rfl
      · simp [List.getLast?_replicate]; rfl
    rw [commentLine, trimmed, dropWhile_eq_self (by simp [List.head?_replicate]), trimmed]
  have none : commentLine [] = [] := rfl
  have marks : withoutMarks ('/' :: '*' :: filling count lineBreaks ++ ['*', '/']) =
      filling count lineBreaks := withoutMarks_block (by decide) _
  unfold commentText
  rw [marks, lines_filling, List.map_cons, List.map_replicate,
    word, none]
  simp [joinWith]

end

/-!
The reading of a body in which a comment stands in a place.
-/

/-- A cut as the reading of members sees it. -/
def cutPiece (cut : Cut) : Piece := Piece.of cut.segment

section

variable {place : CommentPlace} {comment : List Char}

theorem isBlank_slash : isBlank '/' = false := rfl

/-- A blank rest behind the last separator adds nothing. -/
theorem take_blank (reading : Reading) {text : List Char} (blank : isAllBlank text) :
    reading.take (Piece.of { text := text, separator := none }) = reading := by
  have noSlash : '/' ∉ text := fun member => by
    have isBlank := List.all_eq_true.mp blank '/' member
    rw [isBlank_slash] at isBlank
    cases isBlank
  rw [Piece.of_markFree (.of_not_mem noSlash), trim_eq_nil_iff.mpr blank]
  obtain ⟨_ | ⟨draft, rest⟩, waits⟩ := reading <;> rfl

theorem reading_eq_foldl_cuts (body : List Char) :
    Reading.of body =
      ((cuts memberSeparation {} (lexemes body)).map cutPiece).foldl Reading.take {} := by
  obtain ⟨ended, last, isCuts, noSeparator, -, isSegments⟩ := exists_segments memberSeparation body
  have isLast : last.segment = { text := last.segment.text, separator := none } := by
    rw [← noSeparator]
    rfl
  rw [Reading.of, isSegments, isCuts]
  simp only [List.map_append, List.foldl_append, List.map_map]
  split
  case isTrue blank =>
    rw [List.map_cons, List.map_nil, List.foldl_cons, List.foldl_nil, cutPiece, isLast,
      take_blank _ blank]
    rfl
  case isFalse => rfl

end

/-- The reading of the cuts in front of the comment's own. -/
def readingAhead (place : CommentPlace) : Reading :=
  (place.before.map cutPiece).foldl Reading.take {}

/-- The piece to which the comment belongs. -/
def ownPiece (place : CommentPlace) (comment : List Char) : Piece :=
  cutPiece (place.own comment)

/-- What stands behind the comment in its cut, as a piece of its own. -/
def pieceBehind (place : CommentPlace) : Piece :=
  Piece.of { text := textOf place.tail, separator := place.separator }

/-- The pieces of the cuts behind the comment's own. -/
def laterPieces (place : CommentPlace) : List Piece := place.after.map cutPiece

/-- A comment in the place has these words. -/
def TellsAt (place : CommentPlace) (comment words : List Char) : Prop :=
  place.Holds memberSeparation comment ∧ commentText comment = some words

/-- Whatever the comment in the place says is the description of the member at this place
among the members of the body. -/
def CommentDescribes (place : CommentPlace) (member : Nat) : Prop :=
  Describes (TellsAt place) (fun comment => membersOf (place.script comment)) member

section

variable {place : CommentPlace} {comment : List Char}

theorem membersOf_script (holds : place.Holds memberSeparation comment) :
    membersOf (place.script comment) =
      ((laterPieces place).foldl Reading.take
        ((readingAhead place).take (ownPiece place comment))).props := by
  have whole : membersOf (place.script comment) = (Reading.of (place.script comment)).props := rfl
  rw [whole, reading_eq_foldl_cuts, holds.divided, CommentPlace.cuts, List.map_append,
    List.foldl_append]
  rfl

theorem isEndless_tellsAt (holds : place.Holds memberSeparation comment) :
    IsEndless (TellsAt place) := by
  have distinct : Function.Injective fun count : Nat => List.replicate (count + 1) 'a' := by
    intro count other same
    simpa using congrArg List.length same
  refine Set.infinite_of_injective_forall_mem distinct fun count => ?_
  have noAngles : ∀ c ∈ memberSeparation.separators, c ≠ '<' ∧ c ≠ '>' :=
    forall_mem_of_all (by decide)
  exact ⟨_, holds.block noAngles (unended_filling count _) (count_filling count _),
    commentText_filling count _⟩

theorem areLexemes_own (holds : place.Holds memberSeparation comment) :
    AreLexemes (place.lead ++ .comment comment :: place.tail) :=
  AreLexemes.of_mem_cuts holds.areLexemes (place.own comment) (by simp [CommentPlace.cuts])

/-- The code of the comment's piece does not depend on its words. -/
theorem code_ownPiece (holds : place.Holds memberSeparation comment) :
    (ownPiece place comment).code =
      trim (place.lead.flatMap Lexeme.uncommented ++
        (List.replicate place.lineBreaks '\n' ++ place.tail.flatMap Lexeme.uncommented)) := by
  have breaks : comment.filter (· = '\n') = List.replicate place.lineBreaks '\n' := by
    rw [← holds.sameLines]
    exact List.filter_eq '\n'
  have isText : (place.own comment).segment.text =
      textOf (place.lead ++ .comment comment :: place.tail) := rfl
  rw [ownPiece, cutPiece, Piece.of, isText, (areLexemes_own holds).withoutComments_textOf,
    List.flatMap_append, List.flatMap_cons, Lexeme.uncommented, breaks]

/-- When only blanks and comments stand in front of the comment, its piece is what stands
behind it, with the comment unless another one follows. -/
theorem ownPiece_of_filler (holds : place.Holds memberSeparation comment)
    (filler : place.lead.all Lexeme.isFiller) :
    ownPiece place comment =
      { pieceBehind place with
        comment := if comments (textOf place.tail) = [] then commentText comment
          else (pieceBehind place).comment } := by
  have areLexemes := areLexemes_own holds
  have blank : isAllBlank (place.lead.flatMap Lexeme.uncommented) := by
    rw [areLexemes.left.isAllBlank_uncommented]
    exact filler
  have breaks : isAllBlank (List.replicate place.lineBreaks '\n') := by
    simp [isAllBlank, show isBlank '\n' from rfl]
  have code : (ownPiece place comment).code = (pieceBehind place).code := by
    rw [code_ownPiece holds, trim_append_of_isAllBlank blank, trim_append_of_isAllBlank breaks,
      pieceBehind, Piece.of, areLexemes.right.tail.withoutComments_textOf]
  have own : (ownPiece place comment).comment =
      if comments (textOf place.tail) = [] then commentText comment
      else (pieceBehind place).comment := by
    obtain ⟨earlier, found⟩ := comments_of_filler areLexemes holds.isComment filler
    have isOwn : (ownPiece place comment).comment =
        (earlier ++ comment :: comments (textOf place.tail)).getLast?.bind commentText := by
      rw [← found]
      rfl
    rw [isOwn, pieceBehind, Piece.of]
    cases comments (textOf place.tail) with
    | nil => simp
    | cons first others =>
        rw [List.getLast?_append_of_ne_nil _ (List.cons_ne_nil _ _), List.getLast?_cons_cons]
        rfl
  rw [← own]
  exact congrArg (fun code => Piece.mk code (ownPiece place comment).comment place.separator) code

/-- The place of the member that a comment in the place describes, if there is one. -/
def memberDescribed? (place : CommentPlace) : Option Nat :=
  if comments (textOf place.tail) = [] then
    (readingAhead place).described? (pieceBehind place) (laterPieces place)
  else none

/-- Behind blanks and comments, a comment describes this one member or none. -/
theorem commentDescribes_iff (holds : place.Holds memberSeparation comment)
    (filler : place.lead.all Lexeme.isFiller) (member : Nat) :
    CommentDescribes place member ↔ memberDescribed? place = some member := by
  have read (source words : List Char) (tells : TellsAt place source words) :
      membersOf (place.script source) =
        ((laterPieces place).foldl Reading.take ((readingAhead place).take
          { pieceBehind place with
            comment := if comments (textOf place.tail) = [] then some words
              else (pieceBehind place).comment })).props := by
    rw [membersOf_script tells.1, ownPiece_of_filler tells.1 filler, tells.2]
  refine FollowsAt.describes_iff ?_ (isEndless_tellsAt holds) read
  unfold memberDescribed?
  split
  case isTrue => exact Reading.followsAt_described? ..
  case isFalse => exact ⟨_, fun _ => rfl⟩

/-- Among the code of a piece, a comment describes the member that the piece starts, or
none. -/
theorem startsMember_of_commentDescribes (holds : place.Holds memberSeparation comment)
    (code : ¬ place.lead.all Lexeme.isFiller) {member : Nat}
    (describes : CommentDescribes place member) :
    member = (readingAhead place).drafts.length ∧ (ownPiece place comment).startsMember := by
  have endless := isEndless_tellsAt holds
  have hasCode : (ownPiece place comment).code ≠ [] := by
    rw [code_ownPiece holds, Ne, trim_eq_nil_iff, isAllBlank_append,
      (areLexemes_own holds).left.isAllBlank_uncommented]
    simp [code]
  -- Only the comment of the piece depends on the words.
  let piece (found : Option (List Char)) : Piece := { ownPiece place comment with comment := found }
  let read (found : Option (List Char)) : List PropDecl :=
    ((laterPieces place).foldl Reading.take ((readingAhead place).take (piece found))).props
  have reads : ∀ source words, TellsAt place source words →
      ∃ found, membersOf (place.script source) = read found := by
    intro source words tells
    have sameCode : (ownPiece place source).code = (ownPiece place comment).code := by
      rw [code_ownPiece tells.1, code_ownPiece holds]
    refine ⟨(ownPiece place source).comment, ?_⟩
    rw [membersOf_script tells.1]
    exact congrArg
      (fun code => ((laterPieces place).foldl Reading.take ((readingAhead place).take
        (Piece.mk code (ownPiece place source).comment place.separator))).props) sameCode
  cases starts : (ownPiece place comment).startsMember with
  | false =>
      refine absurd describes (not_describes endless (Set.finite_singleton (read none)[member]?) ?_)
      intro source words tells
      obtain ⟨found, isRead⟩ := reads source words tells
      have same : (readingAhead place).take (piece found) = (readingAhead place).take (piece none) :=
        (Reading.take_of_other_comment starts hasCode found).trans
          (Reading.take_of_other_comment starts hasCode none).symm
      rw [isRead]
      exact congrArg (fun first => ((laterPieces place).foldl Reading.take first).props[member]?) same
  | true =>
      refine ⟨?_, rfl⟩
      have follows := (readingAhead place).followsAt_described? (ownPiece place comment)
        (laterPieces place)
      rw [Reading.described?, if_pos starts] at follows
      obtain ⟨older, prop, newer, length, stands⟩ := follows
      rw [← length]
      by_contra elsewhere
      -- Elsewhere a member reads the same whatever the words are, or when none are found.
      refine not_describes endless
        (Set.toFinite {(older ++ prop :: newer)[member]?, (read none)[member]?}) ?_ describes
      intro source words tells
      obtain ⟨found, isRead⟩ := reads source words tells
      rw [isRead]
      cases found with
      | none => exact .inr rfl
      | some other =>
          refine .inl ?_
          rw [← getElem?_saying elsewhere other, ← stands other]

end

end ComponentAtlas.Props
