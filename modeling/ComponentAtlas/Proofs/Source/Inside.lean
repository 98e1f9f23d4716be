/-
Module: ComponentAtlas.Proofs.Source.Inside
Purpose: The lexemes inside a bracket, and the inside of a bracket without its comments.
Main exports:
  inside, groupBody_textOf, groupBody_withoutComments
-/
import ComponentAtlas.Proofs.Source.Comments
import ComponentAtlas.Proofs.Source.Depth

namespace ComponentAtlas.Source

/-- The lexemes up to the one that closes the last open bracket, when one more bracket is open
than the number says. -/
def inside (opened : Nat) : List Lexeme → List Lexeme
  | [] => []
  | part :: rest =>
    match part.depth (opened + 1) with
    | 0 => []
    | fewer + 1 => part :: inside fewer rest

section

variable {part : Lexeme} {parts rest : List Lexeme} {opened fewer : Nat} {breaks text : List Char}

theorem inside_cons (depth : part.depth (opened + 1) = fewer + 1) (rest : List Lexeme) :
    inside opened (part :: rest) = part :: inside fewer rest := by
  rw [inside, depth]

theorem inside_closer (depth : part.depth (opened + 1) = 0) (rest : List Lexeme) :
    inside opened (part :: rest) = [] := by
  rw [inside, depth]

theorem inside_prefix (opened : Nat) (parts : List Lexeme) : inside opened parts <+: parts := by
  induction parts generalizing opened with
  | nil => exact List.nil_prefix
  | cons part rest ih =>
      cases depth : part.depth (opened + 1) with
      | zero =>
          rw [inside_closer depth]
          exact List.nil_prefix
      | succ fewer =>
          rw [inside_cons depth]
          exact List.cons_prefix_cons.mpr ⟨rfl, ih fewer⟩

/-- Only one character of code closes a bracket. -/
theorem length_text_of_depth (depth : part.depth (opened + 1) = 0) : part.text.length = 1 := by
  cases part with
  | code c => rfl
  | literal text => cases depth
  | comment text => cases depth

/-- With brackets open, the scanner ends right behind the lexemes inside them, or finds no end
and has passed all lexemes. -/
theorem closing_inside (areLexemes : AreLexemes parts) (opened : Nat) :
    closing (List.replicate (opened + 1) .bracket) false (textOf parts) =
        some ((textOf (inside opened parts)).length + 1) ∨
      closing (List.replicate (opened + 1) .bracket) false (textOf parts) = none ∧
        inside opened parts = parts := by
  induction parts generalizing opened with
  | nil => exact .inr ⟨rfl, rfl⟩
  | cons part rest ih =>
      have step : Passes _ _ _ _ := areLexemes.passes opened
      rw [Passes] at step
      rw [textOf_cons, step]
      cases depth : part.depth (opened + 1) with
      | zero =>
          refine .inl ?_
          rw [inside_closer depth, length_text_of_depth depth]
          cases textOf rest <;> rfl
      | succ fewer =>
          rw [inside_cons depth]
          rcases ih areLexemes.tail fewer with closed | ⟨unclosed, isAll⟩
          · refine .inl ?_
            rw [closed, textOf_cons, List.length_append, pass, Option.map_some, Option.some_inj]
            omega
          · exact .inr ⟨by rw [unclosed]; rfl, by rw [isAll]⟩

theorem groupBody_textOf (areLexemes : AreLexemes parts) :
    groupBody (textOf parts) = textOf (inside 0 parts) := by
  obtain ⟨outside, divided⟩ := inside_prefix 0 parts
  have isText : textOf parts = textOf (inside 0 parts) ++ textOf outside := by
    rw [← textOf_append, divided]
  rw [groupBody, groupLength?]
  rcases closing_inside areLexemes 0 with closed | ⟨unclosed, isAll⟩
  · rw [List.replicate_one] at closed
    rw [closed, Option.map_some, Nat.add_sub_cancel, isText]
    exact List.take_left
  · rw [List.replicate_one] at unclosed
    rw [unclosed, isAll]
    rfl

theorem Lexeme.depth_lineBreak (opened : Nat) : (Lexeme.code '\n').depth opened = opened := rfl

theorem inside_breaks_append (isBreaks : ∀ c ∈ breaks, c = '\n') (rest : List Lexeme) :
    inside opened (breaks.map .code ++ rest) = breaks.map .code ++ inside opened rest := by
  induction breaks with
  | nil => rfl
  | cons c breaks ih =>
      rw [List.forall_mem_cons] at isBreaks
      obtain ⟨rfl, isBreaks⟩ := isBreaks
      rw [List.map_cons, List.cons_append, inside_cons (Lexeme.depth_lineBreak _), ih isBreaks,
        List.cons_append]

/-- Comments neither open nor close a bracket, and no more do the line breaks that are left of
them. -/
theorem inside_remains (opened : Nat) (parts : List Lexeme) :
    inside opened (parts.flatMap Lexeme.remains) = (inside opened parts).flatMap Lexeme.remains := by
  induction parts generalizing opened with
  | nil => rfl
  | cons part rest ih =>
      cases part with
      | comment text =>
          have isBreaks : ∀ c ∈ text.filter (· = '\n'), c = '\n' := by simp
          have depth : (Lexeme.comment text).depth (opened + 1) = opened + 1 := rfl
          rw [inside_cons depth, List.flatMap_cons, List.flatMap_cons, Lexeme.remains,
            inside_breaks_append isBreaks, ih]
      | literal text =>
          have depth : (Lexeme.literal text).depth (opened + 1) = opened + 1 := rfl
          have kept : (Lexeme.literal text).remains = [.literal text] := rfl
          rw [inside_cons depth, List.flatMap_cons, List.flatMap_cons, kept,
            List.singleton_append, inside_cons depth, ih, List.singleton_append]
      | code c =>
          have kept : (Lexeme.code c).remains = [.code c] := rfl
          rw [List.flatMap_cons, kept, List.singleton_append]
          cases depth : (Lexeme.code c).depth (opened + 1) with
          | zero => rw [inside_closer depth, inside_closer depth, List.flatMap_nil]
          | succ fewer =>
              rw [inside_cons depth, inside_cons depth, List.flatMap_cons, ih]
              rfl

/-- Removing comments and taking the inside of a bracket can be done in either order. -/
theorem groupBody_withoutComments (text : List Char) :
    groupBody (withoutComments text) = withoutComments (groupBody text) := by
  have areLexemes := areLexemes_lexemes text
  obtain ⟨outside, divided⟩ := inside_prefix 0 (lexemes text)
  have isInside : AreLexemes (inside 0 (lexemes text)) := (divided ▸ areLexemes).left
  have left : groupBody (withoutComments text) =
      (inside 0 (lexemes text)).flatMap Lexeme.uncommented := by
    rw [withoutComments, ← textOf_flatMap_remains, groupBody_textOf areLexemes.remains,
      inside_remains, textOf_flatMap_remains]
  have right : withoutComments (groupBody text) =
      (inside 0 (lexemes text)).flatMap Lexeme.uncommented := by
    conv_lhs => rw [← textOf_lexemes text]
    rw [groupBody_textOf areLexemes, isInside.withoutComments_textOf]
  rw [left, right]

end

end ComponentAtlas.Source
