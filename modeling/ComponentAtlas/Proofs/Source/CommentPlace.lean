/-
Module: ComponentAtlas.Proofs.Source.CommentPlace
Purpose: A comment in its place in a divided script, and the comments that can stand there in
  its stead.
Main exports:
  IsComment, AreLexemes.comment_cases, AreLexemes.congr_right, AreCuts, CommentPlace,
  CommentPlace.Holds, exists_place, CommentPlace.Holds.block
-/
import ComponentAtlas.Proofs.Source.Cutting

namespace ComponentAtlas.Source

open ComponentAtlas.Text

/-- One whole comment: a line comment without its line break, or a closed block comment. -/
inductive IsComment : List Char → Prop where
  | line {inside : List Char} (onLine : '\n' ∉ inside) : IsComment ('/' :: '/' :: inside)
  | block {inside : List Char} (unended : ¬ ['*', '/'] <:+: inside) :
      IsComment ('/' :: '*' :: inside ++ ['*', '/'])

/-!
A lexeme that is a comment is closed, unless it is the rest of the script.
-/

section

variable {inside rest text comment : List Char} {more parts other : List Lexeme} {count : Nat}

theorem extent_lineComment (text : List Char) :
    extent .lineComment text = (text.takeWhile (· ≠ '\n')).length := by
  have each : closing [.lineComment] false text =
      if '\n' ∈ text then some (text.takeWhile (· ≠ '\n')).length else none := by
    induction text with
    | nil => rfl
    | cons c text ih =>
        by_cases isBreak : c = '\n'
        · subst isBreak
          rfl
        · have goesOn : move .lineComment [] c text.head? = some { frames := [.lineComment] } := by
            simp [move, isBreak]
          rw [closing_cons, goesOn]
          simp only [ih, List.mem_cons, Ne.symm isBreak, false_or]
          split <;> simp [pass, isBreak]
  rw [extent, each]
  split
  case isTrue => rfl
  case isFalse noBreak =>
    have all : ∀ c ∈ text, decide (c ≠ '\n') := fun c member => by
      simpa using fun isBreak : c = '\n' => noBreak (isBreak ▸ member)
    rw [Option.getD_none, List.takeWhile_eq_self_iff.mpr all]

theorem closing_blockComment (closed : closing [.blockComment] false text = some count) :
    ∃ inside rest, text = inside ++ '*' :: '/' :: rest ∧ ¬ ['*', '/'] <:+: inside ∧
      count = inside.length + 2 := by
  induction text generalizing count with
  | nil => cases closed
  | cons c text ih =>
      rw [closing_cons] at closed
      by_cases ends : c = '*' ∧ text.head? = some '/'
      · obtain ⟨rfl, isSlash⟩ := ends
        obtain ⟨rest, rfl⟩ := List.head?_eq_some_iff.mp isSlash
        exact ⟨[], rest, rfl, by simp, (Option.some.inj closed).symm⟩
      · have goesOn : move .blockComment [] c text.head? = some { frames := [.blockComment] } := by
          simpa [move] using ends
        rw [goesOn] at closed
        obtain ⟨answer, later, rfl⟩ := pass_eq_some.mp closed
        obtain ⟨inside, rest, rfl, unended, rfl⟩ := ih later
        refine ⟨c :: inside, rest, rfl, ?_, rfl⟩
        rw [List.infix_cons_iff, not_or]
        refine ⟨fun starts => ends ?_, unended⟩
        obtain ⟨rfl, more⟩ := List.cons_prefix_cons.mp starts
        refine ⟨rfl, ?_⟩
        cases inside with
        | nil => simp at more
        | cons d inside =>
            obtain ⟨rfl, -⟩ := List.cons_prefix_cons.mp more
            rfl

/-- A line comment ends at a line break or with the text. -/
theorem lineComment_cases (ends : extent .lineComment (inside ++ rest) = inside.length) :
    '\n' ∉ inside ∧ (rest = [] ∨ rest.head? = some '\n') := by
  rw [extent_lineComment] at ends
  have isTaken : (inside ++ rest).takeWhile (· ≠ '\n') = inside :=
    (List.prefix_of_prefix_length_le (List.takeWhile_prefix _) (List.prefix_append inside rest)
      ends.le).eq_of_length ends
  have plain : ∀ c ∈ inside, decide (c ≠ '\n') := fun c member =>
    List.mem_takeWhile_imp (p := (· ≠ '\n')) (isTaken.symm ▸ member)
  refine ⟨fun member => by simpa using plain '\n' member, ?_⟩
  cases rest with
  | nil => exact .inl rfl
  | cons c rest =>
      refine .inr (congrArg some ?_)
      by_contra other
      rw [List.takeWhile_append_of_pos plain] at isTaken
      simp [other] at isTaken

/-- A block comment ends with its mark or with the text. -/
theorem blockComment_cases (ends : extent .blockComment (inside ++ rest) = inside.length) :
    rest = [] ∨ ∃ body, inside = body ++ ['*', '/'] ∧ ¬ ['*', '/'] <:+: body := by
  cases closed : closing [.blockComment] false (inside ++ rest) with
  | none =>
      rw [extent, closed, Option.getD_none, List.length_append] at ends
      exact .inl (List.length_eq_zero_iff.mp (by omega))
  | some count =>
      rw [extent, closed, Option.getD_some] at ends
      obtain ⟨body, more, divided, unended, rfl⟩ := closing_blockComment closed
      have regrouped : inside ++ rest = (body ++ ['*', '/']) ++ more := by rw [divided]; simp
      exact .inr ⟨body, (List.append_inj regrouped (by simp [← ends])).1, unended⟩

/-- A comment ends at a line break or with its mark, unless it is the rest of the script. -/
theorem AreLexemes.comment_cases (areLexemes : AreLexemes (.comment comment :: more)) :
    textOf more = [] ∨
      (∃ inside, comment = '/' :: '/' :: inside ∧ '\n' ∉ inside ∧
        (textOf more).head? = some '\n') ∨
      ∃ inside, comment = '/' :: '*' :: inside ++ ['*', '/'] ∧ ¬ ['*', '/'] <:+: inside := by
  cases areLexemes with
  | comment inside ends _ =>
      obtain ⟨mark, frame, body, isMark, divided, size⟩ := commentLength?_eq_some ends
      cases inside with
      | nil => simp only [List.length_nil] at size; omega
      | cons d inside =>
          obtain ⟨rfl, rfl⟩ := List.cons.inj divided
          rw [List.length_cons, Nat.add_comm 1, Nat.add_right_cancel_iff] at size
          simp only [List.mem_cons, Prod.mk.injEq, List.not_mem_nil, or_false] at isMark
          obtain ⟨rfl, rfl⟩ | ⟨rfl, rfl⟩ := isMark
          · obtain ⟨onLine, none | isBreak⟩ := lineComment_cases size.symm
            · exact .inl none
            · exact .inr (.inl ⟨inside, rfl, onLine, isBreak⟩)
          · obtain none | ⟨body, rfl, unended⟩ := blockComment_cases size.symm
            · exact .inl none
            · exact .inr (.inr ⟨body, rfl, unended⟩)

theorem AreLexemes.isComment (areLexemes : AreLexemes (.comment comment :: more))
    (followed : textOf more ≠ []) : IsComment comment := by
  obtain none | ⟨inside, rfl, onLine, -⟩ | ⟨inside, rfl, unended⟩ := areLexemes.comment_cases
  · exact absurd none followed
  · exact .line onLine
  · exact .block unended

/-- Other lexemes can follow when their text starts with the same character. -/
theorem AreLexemes.congr_right (areLexemes : AreLexemes (parts ++ more))
    (others : AreLexemes other) (sameHead : (textOf other).head? = (textOf more).head?) :
    AreLexemes (parts ++ other) := by
  have sameHeads (lead : List Lexeme) :
      (textOf (lead ++ other)).head? = (textOf (lead ++ more)).head? := by
    rw [textOf_append, textOf_append, List.head?_append, List.head?_append, sameHead]
  have stands (lead : List Lexeme) : StandsFor (textOf (lead ++ other)) (textOf (lead ++ more)) :=
    { atEnd := fun none => by
        have noHead := sameHeads lead
        rw [none] at noHead
        exact List.head?_eq_none_iff.mp noHead
      atBreak := fun isBreak => .inr (by rw [sameHeads, isBreak]) }
  induction parts with
  | nil => exact others
  | cons part parts ih =>
      rw [List.cons_append] at areLexemes ⊢
      cases areLexemes with
      | code c notQuote alone later =>
          exact .code c notQuote (fun isSlash => sameHeads parts ▸ alone isSlash) (ih later)
      | literal quote inside isQuote ends later =>
          exact .literal quote inside isQuote (extent_congr (stands parts) ends) (ih later)
      | comment inside ends later =>
          exact .comment inside (commentLength?_congr (stands parts) ends) (ih later)

end

/-!
The cuts of a script, told without the scanner: no separator divides the lexemes of a cut, and
the one that ends it stands outside all brackets.
-/

/-- Cut one after the other, the lexemes of the pieces give these pieces. -/
inductive AreCuts (style : Separation) : Nesting → List Cut → Prop where
  | last {nesting next : Nesting} {parts : List Lexeme}
      (through : nesting.through style parts = .ok next) :
      AreCuts style nesting [{ parts := parts, separator := none }]
  | ended {nesting next : Nesting} {parts : List Lexeme} {separator : Char} {rest : List Cut}
      (through : nesting.through style parts = .ok next)
      (ends : next.after style (.code separator) = .error separator)
      (later : AreCuts style { next with previous := some separator } rest) :
      AreCuts style nesting ({ parts := parts, separator := some separator } :: rest)

section

variable {style : Separation} {nesting next : Nesting} {pieces before after : List Cut}

theorem AreCuts.consCut {part : Lexeme} (isAfter : nesting.after style part = .ok next)
    (areCuts : AreCuts style next pieces) : AreCuts style nesting (consCut part pieces) := by
  cases areCuts with
  | last through => exact .last ((Nesting.through_cons isAfter _).trans through)
  | ended through ends later =>
      exact .ended ((Nesting.through_cons isAfter _).trans through) ends later

theorem areCuts_cuts (style : Separation) (nesting : Nesting) (parts : List Lexeme) :
    AreCuts style nesting (cuts style nesting parts) := by
  induction parts generalizing nesting with
  | nil => exact .last rfl
  | cons part parts ih =>
      cases isAfter : nesting.after style part with
      | error separator =>
          obtain ⟨rfl, -⟩ := Nesting.after_eq_error isAfter
          have through : nesting.through style [] = .ok nesting := rfl
          rw [cuts_separator isAfter]
          exact .ended through isAfter (ih _)
      | ok next =>
          rw [cuts_cons isAfter]
          exact (ih next).consCut isAfter

theorem AreCuts.cuts_eq (areCuts : AreCuts style nesting pieces) :
    cuts style nesting (pieces.flatMap Cut.whole) = pieces := by
  induction areCuts with
  | last through =>
      have whole := cuts_append through []
      rw [cuts, foldr_consCut] at whole
      simpa [Cut.whole] using whole
  | @ended nesting next parts separator rest through ends _ ih =>
      have divided : List.flatMap Cut.whole
          ({ parts := parts, separator := some separator } :: rest) =
          parts ++ .code separator :: rest.flatMap Cut.whole := by simp [Cut.whole]
      rw [divided, cuts_append through, cuts_separator ends, foldr_consCut, ih, List.append_nil]

end

/-!
What stands behind a comment does not see which comment it is: only an angle looks at the
character before it, and behind a line comment comes a line break.
-/

section

variable {style : Separation} {nesting next : Nesting} {before after : List Cut}
  {comment other : List Char} {lead tail more : List Lexeme}

theorem Nesting.after_congr {part : Lexeme} (noAngle : part ≠ .code '<' ∧ part ≠ .code '>')
    (nesting : Nesting) (previous other : Option Char) :
    ({ nesting with previous := previous } : Nesting).after style part =
      ({ nesting with previous := other } : Nesting).after style part := by
  cases part with
  | literal text => rfl
  | comment text => rfl
  | code c =>
      obtain ⟨notLess, notGreater⟩ : c ≠ '<' ∧ c ≠ '>' := by simpa using noAngle
      simp [after, afterCode?, notLess, notGreater]

theorem AreLexemes.textOf_ne_nil {part : Lexeme} (areLexemes : AreLexemes (part :: more)) :
    textOf (part :: more) ≠ [] := by
  cases areLexemes <;> simp [Lexeme.text]

/-- Behind a comment the script goes on as behind a slash. -/
theorem Nesting.through_behind_comment
    (areLexemes : AreLexemes (.comment comment :: (tail ++ more))) (notLast : tail ≠ [])
    (nesting : Nesting) :
    ({ nesting with previous := comment.getLast? } : Nesting).through style tail =
      ({ nesting with previous := some '/' } : Nesting).through style tail := by
  cases tail with
  | nil => exact absurd rfl notLast
  | cons part tail =>
      obtain none | ⟨inside, -, -, isBreak⟩ | ⟨inside, rfl, -⟩ := areLexemes.comment_cases
      · exact absurd none areLexemes.tail.textOf_ne_nil
      · have noAngle : part ≠ .code '<' ∧ part ≠ .code '>' := by
          constructor <;>
            · rintro rfl
              simp [Lexeme.text] at isBreak
        rw [through, List.foldlM_cons, after_congr noAngle, ← List.foldlM_cons]
        rfl
      · rw [List.getLast?_append_of_ne_nil _ (List.cons_ne_nil _ _)]
        rfl

/-- In the place of a comment another one can stand that ends with a slash: as many brackets
and type argument lists are open behind it. -/
theorem Nesting.through_replace (areLexemes : AreLexemes (.comment comment :: (tail ++ more)))
    (ends : other.getLast? = some '/')
    (through : nesting.through style (lead ++ .comment comment :: tail) = .ok next) :
    ∃ previous, nesting.through style (lead ++ .comment other :: tail) =
      .ok { next with previous := previous } := by
  cases isLead : nesting.through style lead with
  | error separator =>
      rw [Nesting.through, List.foldlM_append, ← Nesting.through, isLead] at through
      cases through
  | ok between =>
      rw [through_append isLead, through_cons rfl] at through ⊢
      by_cases last : tail = []
      · subst last
        cases through
        exact ⟨_, rfl⟩
      · rw [through_behind_comment areLexemes last] at through
        exact ⟨next.previous, by rw [ends, through]⟩

/-- A separator that is no angle ends a cut whatever stands before it. -/
theorem Nesting.ends_congr {separator : Char} (noAngle : separator ≠ '<' ∧ separator ≠ '>')
    (ends : next.after style (.code separator) = .error separator) (previous : Option Char) :
    ({ next with previous := previous } : Nesting).after style (.code separator) =
      .error separator := by
  rw [after_congr (by simpa using noAngle) next previous next.previous]
  exact ends

end

section

variable {style : Separation} {nesting : Nesting} {before after : List Cut}
  {comment other : List Char} {lead tail more : List Lexeme} {separator : Option Char}

/-- The cuts stay as they are when another comment stands in the place of one. -/
theorem AreCuts.replace (noAngles : ∀ c ∈ style.separators, c ≠ '<' ∧ c ≠ '>')
    (areLexemes : AreLexemes (.comment comment :: (tail ++ more)))
    (isSlash : other.getLast? = some '/')
    (areCuts : AreCuts style nesting
      (before ++ { parts := lead ++ .comment comment :: tail, separator := separator } :: after)) :
    AreCuts style nesting
      (before ++ { parts := lead ++ .comment other :: tail, separator := separator } :: after) := by
  induction before generalizing nesting with
  | nil =>
      cases areCuts with
      | last through =>
          obtain ⟨previous, through⟩ := Nesting.through_replace areLexemes isSlash through
          exact .last through
      | ended through ends later =>
          obtain ⟨-, listed, -⟩ := Nesting.after_eq_error ends
          obtain ⟨previous, through⟩ := Nesting.through_replace areLexemes isSlash through
          exact .ended through (Nesting.ends_congr (noAngles _ listed) ends previous) later
  | cons first before ih =>
      rw [List.cons_append] at areCuts ⊢
      generalize isRest : before ++ _ :: after = rest at areCuts
      cases areCuts with
      | last => exact absurd isRest (by simp)
      | ended through ends later =>
          subst isRest
          exact .ended through ends (ih later)

end

/-!
A place for a comment in a divided script.
-/

/-- What stands around a comment: the cuts before its own, the lexemes of its own cut before
and behind it, the separator that ends its cut, and the cuts behind. -/
structure CommentPlace where
  before : List Cut
  lead : List Lexeme
  tail : List Lexeme
  separator : Option Char
  after : List Cut
  /-- The number of line breaks in the comment. -/
  lineBreaks : Nat

namespace CommentPlace

/-- The cut to which the comment belongs. -/
def own (place : CommentPlace) (comment : List Char) : Cut :=
  { parts := place.lead ++ .comment comment :: place.tail, separator := place.separator }

/-- The cuts of the script with the comment. -/
def cuts (place : CommentPlace) (comment : List Char) : List Cut :=
  place.before ++ place.own comment :: place.after

/-- The script with the comment. -/
def script (place : CommentPlace) (comment : List Char) : List Char :=
  textOf ((place.cuts comment).flatMap Cut.whole)

/-- The comment can stand in the place: the scanner meets it there, and the script is divided
as the place says. -/
structure Holds (style : Separation) (place : CommentPlace) (comment : List Char) : Prop where
  isComment : IsComment comment
  divided : Source.cuts style {} (lexemes (place.script comment)) = place.cuts comment
  sameLines : comment.count '\n' = place.lineBreaks

end CommentPlace

section

variable {style : Separation} {place : CommentPlace} {text comment inside : List Char}

/-- Each comment of a script stands in a place. -/
theorem exists_place (style : Separation) (isComment : IsComment comment)
    (met : .comment comment ∈ lexemes text) :
    ∃ place : CommentPlace, place.Holds style comment ∧ place.script comment = text := by
  have whole := flatMap_whole_cuts style {} (lexemes text)
  rw [← whole, List.mem_flatMap] at met
  obtain ⟨own, isCut, inOwn⟩ := met
  obtain ⟨before, after, divided⟩ := List.append_of_mem isCut
  have inParts : .comment comment ∈ own.parts := by
    rw [Cut.whole, List.mem_append] at inOwn
    rcases inOwn with inParts | isSeparator
    · exact inParts
    · cases ends : own.separator <;> simp [ends] at isSeparator
  obtain ⟨lead, tail, isOwn⟩ := List.append_of_mem inParts
  let place : CommentPlace :=
    { before, lead, tail, after, separator := own.separator, lineBreaks := comment.count '\n' }
  have isCuts : place.cuts comment = cuts style {} (lexemes text) := by
    rw [divided, CommentPlace.cuts, CommentPlace.own, ← isOwn]
  have isScript : place.script comment = text := by
    rw [CommentPlace.script, isCuts, whole, textOf_lexemes]
  exact ⟨place, ⟨isComment, by rw [isScript, isCuts], rfl⟩, isScript⟩

theorem CommentPlace.Holds.areCuts (holds : place.Holds style comment) :
    AreCuts style {} (place.cuts comment) :=
  holds.divided ▸ areCuts_cuts style {} _

theorem CommentPlace.Holds.whole (holds : place.Holds style comment) :
    (place.cuts comment).flatMap Cut.whole = lexemes (place.script comment) := by
  rw [← holds.divided, flatMap_whole_cuts]

theorem CommentPlace.Holds.areLexemes (holds : place.Holds style comment) :
    AreLexemes ((place.cuts comment).flatMap Cut.whole) :=
  holds.whole ▸ areLexemes_lexemes _

/-- The lexemes in front of the comment, and those behind it. -/
theorem CommentPlace.flatMap_whole_cuts (place : CommentPlace) (comment : List Char) :
    (place.cuts comment).flatMap Cut.whole =
      (place.before.flatMap Cut.whole ++ place.lead) ++ .comment comment ::
        (place.tail ++ ((place.separator.map Lexeme.code).toList ++
          place.after.flatMap Cut.whole)) := by
  simp [cuts, own, Cut.whole]

/-- Where a comment can stand, each block comment can that has as many line breaks. -/
theorem CommentPlace.Holds.block (holds : place.Holds style comment)
    (noAngles : ∀ c ∈ style.separators, c ≠ '<' ∧ c ≠ '>') (unended : ¬ ['*', '/'] <:+: inside)
    (sameLines : inside.count '\n' = place.lineBreaks) :
    place.Holds style ('/' :: '*' :: inside ++ ['*', '/']) := by
  have areLexemes := holds.areLexemes
  rw [place.flatMap_whole_cuts] at areLexemes
  have isSlash : ('/' :: '*' :: inside ++ ['*', '/']).getLast? = some '/' := by
    rw [List.getLast?_append_of_ne_nil _ (List.cons_ne_nil _ _)]
    rfl
  have areCuts := holds.areCuts.replace noAngles areLexemes.right isSlash
  have ends (rest : List Char) :
      commentLength? (('*' :: inside ++ ['*', '/']) ++ rest) =
        some ('*' :: inside ++ ['*', '/']).length := by
    have size := @commentLength?_block inside rest unended
    simpa using size
  have behind : AreLexemes (.comment ('/' :: '*' :: inside ++ ['*', '/']) :: _) :=
    .comment _ (ends _) areLexemes.right.tail
  obtain ⟨first, isFirst⟩ : ∃ first, comment = '/' :: first := by
    cases holds.isComment <;> exact ⟨_, rfl⟩
  have areOthers := areLexemes.congr_right behind (by simp [isFirst, Lexeme.text])
  rw [← place.flatMap_whole_cuts] at areOthers
  refine ⟨.block unended, ?_, ?_⟩
  · rw [script, areOthers.lexemes_textOf]
    exact areCuts.cuts_eq
  · simpa using sameLines

end

end ComponentAtlas.Source
