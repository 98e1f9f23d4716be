/-
Module: ComponentAtlas.Proofs.Source.Division
Purpose: A script is divided into lexemes in one way, and any run of its lexemes is the
  division of the text that the run makes up.
Main exports:
  extent, StandsFor, extent_congr, AreLexemes, areLexemes_lexemes,
  AreLexemes.lexemes_textOf, AreLexemes.left, AreLexemes.right
-/
import ComponentAtlas.Proofs.Source.Lexeme

namespace ComponentAtlas.Source

/-!
Unlike `IsLexed`, which asks that every literal and comment is closed, this is about every
text: a literal or a comment may also end at a line break that does not belong to it, or at
the end of the text.
-/

section

variable {frame : Frame} {frames below : List Frame} {pair : Bool} {c : Char}
  {next : Option Char} {count : Nat} {text rest : List Char}

theorem pass_eq_some {count total : Nat} {later : Option Nat} :
    pass count later = some total ↔ ∃ answer, later = some answer ∧ answer + count = total :=
  Option.map_eq_some_iff

/-- Only a line break ends a frame without belonging to it. -/
theorem move_eq_none (stops : move frame below c next = none) :
    c = '\n' ∧ ∀ other, move frame below c other = none := by
  cases frame <;> grind [move]

/-- A character that closes the last open frame on its own does so whatever comes next. -/
theorem move_last (closes : move frame below c next = some { frames := [] })
    (other : Option Char) : move frame below c other = some { frames := [] } := by
  cases frame with
  | bracket =>
      have closer : isCloser c := by grind [move]
      rw [move_closer closer] at closes ⊢
      exact closes
  | _ => grind [move]

theorem closing_nil (closed : closing frames pair [] = some count) :
    frames = [] ∧ pair = false ∧ count = 0 := by
  cases frames with
  | cons frame below => cases closed
  | nil =>
      cases pair with
      | true => cases closed
      | false => exact ⟨rfl, rfl, (Option.some.inj closed).symm⟩

/-- When all frames are closed within a text, what follows it decides no step on the way. -/
theorem move_ahead {between : Move} (closed : closing between.frames between.pair text = some count)
    (moved : move frame below c (text ++ rest).head? = some between) (other : List Char) :
    move frame below c (text ++ other).head? = some between := by
  cases text with
  | cons d more => exact moved
  | nil =>
      obtain ⟨noFrames, noPair, -⟩ := closing_nil closed
      obtain rfl : between = { frames := [] } := by
        cases between
        cases noFrames
        cases noPair
        rfl
      exact move_last moved _

/-- The answer never points outside the text. -/
theorem closing_le (closed : closing frames pair text = some count) : count ≤ text.length := by
  induction text generalizing frames pair count with
  | nil => exact (closing_nil closed).2.2.le
  | cons c text ih =>
      match frames, pair with
      | [], false =>
          cases closed
          exact Nat.zero_le _
      | _, true =>
          rw [closing_pair] at closed
          obtain ⟨answer, later, rfl⟩ := pass_eq_some.mp closed
          exact Nat.succ_le_succ (ih later)
      | frame :: below, false =>
          rw [closing_cons] at closed
          split at closed
          · cases closed
            exact Nat.zero_le _
          · obtain ⟨answer, later, rfl⟩ := pass_eq_some.mp closed
            exact Nat.succ_le_succ (ih later)

/-- What is closed within a text is closed there whatever follows. -/
theorem closing_append (closed : closing frames pair text = some count) (rest : List Char) :
    closing frames pair (text ++ rest) = some count := by
  induction text generalizing frames pair count with
  | nil =>
      obtain ⟨rfl, rfl, rfl⟩ := closing_nil closed
      cases rest <;> rfl
  | cons c text ih =>
      match frames, pair with
      | [], false => exact closed
      | _, true =>
          rw [closing_pair] at closed
          obtain ⟨answer, later, isCount⟩ := pass_eq_some.mp closed
          rw [List.cons_append, closing_pair, ih later]
          exact congrArg some isCount
      | frame :: below, false =>
          rw [closing_cons] at closed
          rw [List.cons_append, closing_cons]
          cases moved : move frame below c text.head? with
          | none =>
              rw [moved] at closed
              rw [(move_eq_none moved).2]
              exact closed
          | some between =>
              rw [moved] at closed
              obtain ⟨answer, later, isCount⟩ := pass_eq_some.mp closed
              have alone : move frame below c (text ++ []).head? = some between := by
                rwa [List.append_nil]
              rw [move_ahead later alone rest]
              exact pass_eq_some.mpr ⟨answer, ih later, isCount⟩

/-- What ends right behind a text is closed within it, or a line break ends it. -/
theorem closing_cases (closed : closing frames pair (text ++ rest) = some text.length) :
    closing frames pair text = some text.length ∨
      rest.head? = some '\n' ∧ ∀ other : List Char, other.head? = some '\n' →
        closing frames pair (text ++ other) = some text.length := by
  induction text generalizing frames pair with
  | nil =>
      match frames, pair, rest with
      | [], false, _ => exact .inl rfl
      | _, true, c :: rest =>
          rw [List.nil_append, closing_pair] at closed
          obtain ⟨answer, -, isZero⟩ := pass_eq_some.mp closed
          cases isZero
      | frame :: below, false, c :: rest =>
          rw [List.nil_append, closing_cons] at closed
          cases moved : move frame below c rest.head? with
          | some between =>
              rw [moved] at closed
              obtain ⟨answer, -, isZero⟩ := pass_eq_some.mp closed
              cases isZero
          | none =>
              obtain ⟨rfl, stops⟩ := move_eq_none moved
              refine .inr ⟨rfl, fun other isBreak => ?_⟩
              obtain ⟨more, rfl⟩ := List.head?_eq_some_iff.mp isBreak
              rw [List.nil_append, closing_cons, stops]
              rfl
  | cons c text ih =>
      match frames, pair with
      | [], false => cases closed
      | _, true =>
          rw [List.cons_append, closing_pair] at closed
          obtain ⟨answer, later, isCount⟩ := pass_eq_some.mp closed
          cases isCount
          rcases ih later with within | ⟨isBreak, stops⟩
          · exact .inl (by rw [closing_pair, within]; rfl)
          · refine .inr ⟨isBreak, fun other same => ?_⟩
            rw [List.cons_append, closing_pair, stops other same]
            rfl
      | frame :: below, false =>
          rw [List.cons_append, closing_cons] at closed
          cases moved : move frame below c (text ++ rest).head? with
          | none =>
              rw [moved] at closed
              cases closed
          | some between =>
              rw [moved] at closed
              obtain ⟨answer, later, isCount⟩ := pass_eq_some.mp closed
              cases isCount
              rcases ih later with within | ⟨isBreak, stops⟩
              · have same := move_ahead within moved []
                rw [List.append_nil] at same
                rw [closing_cons, same]
                exact .inl (pass_eq_some.mpr ⟨_, within, rfl⟩)
              · refine .inr ⟨isBreak, fun other same => ?_⟩
                have sameHead : (text ++ other).head? = (text ++ rest).head? := by
                  rw [List.head?_append, List.head?_append, same, isBreak]
                rw [List.cons_append, closing_cons, sameHead, moved]
                exact pass_eq_some.mpr ⟨_, stops other same, rfl⟩

/-- The number of characters up to the end of a frame, which the end of the text ends at
the latest. -/
def extent (frame : Frame) (text : List Char) : Nat := (closing [frame] false text).getD text.length

theorem extent_le (frame : Frame) (text : List Char) : extent frame text ≤ text.length := by
  unfold extent
  cases closed : closing [frame] false text with
  | none => exact le_rfl
  | some count => exact closing_le closed

end

/-- Behind a literal or a comment, `other` may stand in place of `rest`: it starts with a
line break when `rest` does, and is empty when `rest` is, unless it is empty anyway. -/
structure StandsFor (other rest : List Char) : Prop where
  atEnd : rest = [] → other = []
  atBreak : rest.head? = some '\n' → other = [] ∨ other.head? = some '\n'

section

variable {frame : Frame} {inside rest other : List Char}

theorem StandsFor.nil (rest : List Char) : StandsFor [] rest where
  atEnd _ := rfl
  atBreak _ := .inl rfl

/-- The beginning of a text stands for the whole. -/
theorem StandsFor.append (text rest : List Char) : StandsFor text (text ++ rest) := by
  cases text with
  | nil => exact .nil _
  | cons c text => exact ⟨fun none => (List.cons_ne_nil _ _ none).elim, .inr⟩

theorem extent_eq_of_closing (closed : closing [frame] false inside = some inside.length)
    (rest : List Char) : extent frame (inside ++ rest) = inside.length := by
  rw [extent, closing_append closed]
  rfl

/-- A frame that ends behind `inside` ends there also before what can stand for the rest. -/
theorem extent_congr (stands : StandsFor other rest)
    (ends : extent frame (inside ++ rest) = inside.length) :
    extent frame (inside ++ other) = inside.length := by
  cases within : closing [frame] false inside with
  | some count =>
      -- It is closed within `inside`, so its end is the one that was found before `rest`.
      rw [extent, closing_append within, Option.getD_some] at ends
      exact extent_eq_of_closing (ends ▸ within) other
  | none =>
      have unended : other = [] → extent frame (inside ++ other) = inside.length := by
        rintro rfl
        rw [List.append_nil, extent, within, Option.getD_none]
      cases closed : closing [frame] false (inside ++ rest) with
      | none =>
          rw [extent, closed, Option.getD_none, List.length_append] at ends
          exact unended (stands.atEnd (List.length_eq_zero_iff.mp (by omega)))
      | some count =>
          rw [extent, closed, Option.getD_some] at ends
          rcases closing_cases (ends ▸ closed) with isClosed | ⟨isBreak, stops⟩
          · rw [within] at isClosed
            cases isClosed
          · rcases stands.atBreak isBreak with none | isBreak
            · exact unended none
            · rw [extent, stops other isBreak, Option.getD_some]

end

/-!
What the scanners take for one literal or one comment.
-/

section

variable {quote : Char} {inside rest other text : List Char} {parts more : List Lexeme}

theorem commentLength?_eq_some {size : Nat} (found : commentLength? text = some size) :
    ∃ mark frame body, (mark, frame) ∈ [('/', Frame.lineComment), ('*', Frame.blockComment)] ∧
      text = mark :: body ∧ size = 1 + extent frame body := by
  unfold commentLength? at found
  split at found
  · exact ⟨'/', .lineComment, _, by simp, rfl, (Option.some.inj found).symm⟩
  · exact ⟨'*', .blockComment, _, by simp, rfl, (Option.some.inj found).symm⟩
  · cases found

theorem commentLength?_of_mark {mark : Char} {frame : Frame}
    (isMark : (mark, frame) ∈ [('/', Frame.lineComment), ('*', Frame.blockComment)])
    (body : List Char) : commentLength? (mark :: body) = some (1 + extent frame body) := by
  simp only [List.mem_cons, Prod.mk.injEq, List.not_mem_nil, or_false] at isMark
  obtain ⟨rfl, rfl⟩ | ⟨rfl, rfl⟩ := isMark <;> rfl

theorem commentLength?_le {size : Nat} (found : commentLength? text = some size) :
    size ≤ text.length := by
  obtain ⟨mark, frame, body, -, rfl, rfl⟩ := commentLength?_eq_some found
  have := extent_le frame body
  simp only [List.length_cons]
  omega

theorem commentLength?_congr (stands : StandsFor other rest)
    (ends : commentLength? (inside ++ rest) = some inside.length) :
    commentLength? (inside ++ other) = some inside.length := by
  obtain ⟨mark, frame, body, isMark, divided, size⟩ := commentLength?_eq_some ends
  cases inside with
  | nil => simp only [List.length_nil] at size; omega
  | cons c inside =>
      obtain ⟨rfl, rfl⟩ := List.cons.inj divided
      rw [List.length_cons, Nat.add_comm 1, Nat.add_right_cancel_iff] at size
      rw [List.cons_append, commentLength?_of_mark isMark, extent_congr stands size.symm,
        List.length_cons, Nat.add_comm]

/-- The lexemes are those of the text that they make up: each literal and each comment ends
where the scanner, seeing what follows, ends it. -/
inductive AreLexemes : List Lexeme → Prop where
  | nil : AreLexemes []
  | code {more : List Lexeme} (c : Char) (notQuote : isQuote c = false)
      (alone : c = '/' → KeepsSlash (textOf more).head?) (later : AreLexemes more) :
      AreLexemes (.code c :: more)
  | literal {more : List Lexeme} (quote : Char) (inside : List Char) (isQuote : isQuote quote)
      (ends : literalLength quote (inside ++ textOf more) = inside.length)
      (later : AreLexemes more) : AreLexemes (.literal (quote :: inside) :: more)
  | comment {more : List Lexeme} (inside : List Char)
      (ends : commentLength? (inside ++ textOf more) = some inside.length)
      (later : AreLexemes more) : AreLexemes (.comment ('/' :: inside) :: more)

@[simp] theorem textOf_nil : textOf [] = [] := rfl

@[simp] theorem textOf_cons (part : Lexeme) (parts : List Lexeme) :
    textOf (part :: parts) = part.text ++ textOf parts := rfl

@[simp] theorem textOf_append (parts more : List Lexeme) :
    textOf (parts ++ more) = textOf parts ++ textOf more := List.flatMap_append

theorem lexemes_of_literalLength (isQuote : isQuote quote)
    (ends : literalLength quote (inside ++ rest) = inside.length) :
    lexemes (quote :: (inside ++ rest)) = .literal (quote :: inside) :: lexemes rest := by
  rw [lexemes, if_pos isQuote, ends]
  simp

theorem lexemes_of_commentLength? (ends : commentLength? (inside ++ rest) = some inside.length) :
    lexemes ('/' :: (inside ++ rest)) = .comment ('/' :: inside) :: lexemes rest := by
  rw [lexemes, if_neg (by simp [isQuote_slash]), if_pos rfl, ends]
  simp

/-- A text has one division into lexemes. -/
theorem AreLexemes.lexemes_textOf (areLexemes : AreLexemes parts) :
    lexemes (textOf parts) = parts := by
  induction areLexemes with
  | nil => exact lexemes_nil
  | code c notQuote alone _ ih =>
      rw [textOf_cons, Lexeme.text, List.singleton_append, lexemes_code notQuote alone, ih]
  | literal quote inside isQuote ends _ ih =>
      rw [textOf_cons, Lexeme.text, List.cons_append, lexemes_of_literalLength isQuote ends, ih]
  | comment inside ends _ ih =>
      rw [textOf_cons, Lexeme.text, List.cons_append, lexemes_of_commentLength? ends, ih]

theorem keepsSlash_of_commentLength?_eq_none (none : commentLength? rest = none) :
    KeepsSlash rest.head? := by
  cases rest with
  | nil => decide
  | cons c rest =>
      refine ⟨?_, ?_⟩
      · rintro ⟨⟩
        cases none
      · rintro ⟨⟩
        cases none

theorem areLexemes_lexemes (text : List Char) : AreLexemes (lexemes text) := by
  fun_induction lexemes text with
  | case1 => exact .nil
  | case2 c rest isQuote size ih =>
      have length : (rest.take size).length = size :=
        List.length_take_of_le (extent_le (.literal c) rest)
      refine .literal c (rest.take size) isQuote ?_ ih
      rw [textOf_lexemes, List.take_append_drop, length]
  | case3 c rest notQuote size isComment ih =>
      have isSlash : c = '/' := by grind
      subst isSlash
      rw [dif_pos rfl] at isComment
      have length : (rest.take size).length = size :=
        List.length_take_of_le (commentLength?_le isComment)
      refine .comment (rest.take size) ?_ ih
      rw [textOf_lexemes, List.take_append_drop, length, isComment]
  | case4 c rest notQuote notComment ih =>
      refine .code c (by simpa using notQuote) (fun isSlash => ?_) ih
      rw [dif_pos isSlash] at notComment
      rw [textOf_lexemes]
      exact keepsSlash_of_commentLength?_eq_none notComment

/-- The first lexemes of a division are a division: each literal and each comment ends where
it ended. -/
theorem AreLexemes.left (areLexemes : AreLexemes (parts ++ more)) : AreLexemes parts := by
  induction parts with
  | nil => exact .nil
  | cons part parts ih =>
      have stands : StandsFor (textOf parts) (textOf (parts ++ more)) := by
        rw [textOf_append]
        exact .append _ _
      rw [List.cons_append] at areLexemes
      cases areLexemes with
      | code c notQuote alone later =>
          refine .code c notQuote (fun isSlash => ?_) (ih later)
          have keeps := alone isSlash
          rw [textOf_append] at keeps
          cases isText : textOf parts with
          | nil => decide
          | cons d others => rwa [isText] at keeps
      | literal quote inside isQuote ends later =>
          exact .literal quote inside isQuote (extent_congr stands ends) (ih later)
      | comment inside ends later =>
          exact .comment inside (commentLength?_congr stands ends) (ih later)

theorem AreLexemes.tail {part : Lexeme} (areLexemes : AreLexemes (part :: more)) :
    AreLexemes more := by
  cases areLexemes with
  | code _ _ _ later => exact later
  | literal _ _ _ _ later => exact later
  | comment _ _ later => exact later

theorem AreLexemes.right (areLexemes : AreLexemes (parts ++ more)) : AreLexemes more := by
  induction parts with
  | nil => exact areLexemes
  | cons part parts ih => exact ih areLexemes.tail

end

end ComponentAtlas.Source
