/-
Module: ComponentAtlas.Proofs.Source.Comments
Purpose: What is left of any script without its comments: the same lines, the same literals,
  and nothing more to remove.
Main exports:
  Lexeme.remains, lexemes_withoutComments, Thins, Thins.rows, HasLiteral,
  withoutComments_retains
-/
import Mathlib.Data.List.Forall2
import ComponentAtlas.Proofs.Source.Division

namespace ComponentAtlas.Source

open ComponentAtlas.Text

/-!
Removing a comment brings together what stands before and behind it.  No comment and no
literal comes about in this way, and none ends at another place: a comment never stands
behind a slash of the code, and a literal that a line break ends keeps its line break.
-/

/-- The lexemes that are left of one when comments are removed. -/
def Lexeme.remains : Lexeme → List Lexeme
  | .comment text => (text.filter (· = '\n')).map .code
  | part => [part]

section

variable {parts : List Lexeme} {text breaks : List Char}

theorem textOf_map_code (text : List Char) : textOf (text.map .code) = text := by
  induction text with
  | nil => rfl
  | cons c text ih => rw [List.map_cons, textOf_cons, ih, Lexeme.text, List.singleton_append]

theorem Lexeme.textOf_remains (part : Lexeme) : textOf part.remains = part.uncommented := by
  cases part with
  | code c => rfl
  | literal text => simp [remains, Lexeme.text, uncommented]
  | comment text => exact textOf_map_code _

theorem textOf_flatMap_remains (parts : List Lexeme) :
    textOf (parts.flatMap Lexeme.remains) = parts.flatMap Lexeme.uncommented := by
  induction parts with
  | nil => rfl
  | cons part parts ih =>
      rw [List.flatMap_cons, List.flatMap_cons, textOf_append, part.textOf_remains, ih]

theorem AreLexemes.withoutComments_textOf (areLexemes : AreLexemes parts) :
    withoutComments (textOf parts) = parts.flatMap Lexeme.uncommented := by
  rw [withoutComments, areLexemes.lexemes_textOf]

theorem withoutComments_standsFor (text : List Char) : StandsFor (withoutComments text) text where
  atEnd := by
    rintro rfl
    exact withoutComments_nil
  atBreak isBreak := by
    obtain ⟨rest, rfl⟩ := List.head?_eq_some_iff.mp isBreak
    rw [withoutComments_single ⟨rfl, by decide⟩]
    exact .inr rfl

theorem AreLexemes.breaks_append (isBreaks : ∀ c ∈ breaks, c = '\n')
    (areLexemes : AreLexemes parts) : AreLexemes (breaks.map .code ++ parts) := by
  induction breaks with
  | nil => exact areLexemes
  | cons c breaks ih =>
      rw [List.forall_mem_cons] at isBreaks
      obtain ⟨rfl, isBreaks⟩ := isBreaks
      exact .code '\n' rfl (fun isSlash => absurd isSlash (by decide)) (ih isBreaks)

/-- Without its comments a division is still a division. -/
theorem AreLexemes.remains (areLexemes : AreLexemes parts) :
    AreLexemes (parts.flatMap Lexeme.remains) := by
  induction areLexemes with
  | nil => exact .nil
  | @code more c notQuote alone later ih =>
      have stillAlone : c = '/' → KeepsSlash (textOf (more.flatMap Lexeme.remains)).head? := by
        intro isSlash
        rw [textOf_flatMap_remains, ← later.withoutComments_textOf]
        exact (alone isSlash).withoutComments
      exact .code c notQuote stillAlone ih
  | @literal more quote inside isQuote ends later ih =>
      have stands := withoutComments_standsFor (textOf more)
      rw [later.withoutComments_textOf, ← textOf_flatMap_remains] at stands
      exact .literal quote inside isQuote (extent_congr stands ends) ih
  | @comment more inside ends later ih => exact ih.breaks_append (by simp)

/-- The lexemes that are left are those of what is left. -/
theorem lexemes_withoutComments (text : List Char) :
    lexemes (withoutComments text) = (lexemes text).flatMap Lexeme.remains := by
  rw [withoutComments, ← textOf_flatMap_remains]
  exact (areLexemes_lexemes text).remains.lexemes_textOf

theorem Lexeme.flatMap_remains_remains (part : Lexeme) :
    part.remains.flatMap remains = part.remains := by
  cases part with
  | code c => rfl
  | literal text => rfl
  | comment text =>
      rw [remains, List.flatMap_map]
      exact List.flatMap_pure_eq_map ..

/-- Nothing is left to remove. -/
theorem withoutComments_withoutComments (text : List Char) :
    withoutComments (withoutComments text) = withoutComments text := by
  have again : lexemes (withoutComments (withoutComments text)) = lexemes (withoutComments text) := by
    rw [lexemes_withoutComments, lexemes_withoutComments, List.flatMap_assoc]
    simp only [Lexeme.flatMap_remains_remains]
  rw [← textOf_lexemes (withoutComments (withoutComments text)), again, textOf_lexemes]

end

/-!
Lines.
-/

/-- The lines of a text, as line feeds separate them. -/
def rows (text : List Char) : List (List Char) := splitWhere (· = '\n') text

theorem rows_cons {c : Char} (noBreak : c ≠ '\n') (text : List Char) :
    ∃ row others, rows text = row :: others ∧ rows (c :: text) = (c :: row) :: others :=
  splitWhere_cons_other (decide_eq_false noBreak : decide (c = '\n') = false) text

/-- The one text is the other without some characters, none of which is a line feed. -/
inductive Thins : (left text : List Char) → Prop where
  | nil : Thins [] []
  | keep {left text : List Char} (c : Char) (later : Thins left text) : Thins (c :: left) (c :: text)
  | drop {left text : List Char} (c : Char) (noBreak : c ≠ '\n') (later : Thins left text) :
      Thins left (c :: text)

namespace Thins

variable {left text more other : List Char}

theorem refl : (text : List Char) → Thins text text
  | [] => .nil
  | c :: text => .keep c (refl text)

theorem append (first : Thins left text) (second : Thins more other) :
    Thins (left ++ more) (text ++ other) := by
  induction first with
  | nil => exact second
  | keep c _ ih => exact .keep c ih
  | drop c noBreak _ ih => exact .drop c noBreak ih

theorem breaks (text : List Char) : Thins (text.filter (· = '\n')) text := by
  induction text with
  | nil => exact .nil
  | cons c text ih =>
      by_cases isBreak : c = '\n'
      · rw [List.filter_cons_of_pos (by simpa using isBreak)]
        exact .keep c ih
      · rw [List.filter_cons_of_neg (by simpa using isBreak)]
        exact .drop c isBreak ih

theorem uncommented (part : Lexeme) : Thins part.uncommented part.text := by
  cases part with
  | code c => exact .refl _
  | literal text => exact .refl _
  | comment text => exact .breaks text

theorem withoutComments (text : List Char) : Thins (withoutComments text) text := by
  have all : ∀ parts : List Lexeme, Thins (parts.flatMap Lexeme.uncommented) (textOf parts) := by
    intro parts
    induction parts with
    | nil => exact .nil
    | cons part parts ih => exact (uncommented part).append ih
  have thins := all (lexemes text)
  rwa [textOf_lexemes] at thins

/-- Line by line, only characters are deleted. -/
theorem rows (thins : Thins left text) : List.Forall₂ List.Sublist (rows left) (rows text) := by
  induction thins with
  | nil => exact .cons (.refl _) .nil
  | @keep left text c _ ih =>
      by_cases isBreak : c = '\n'
      · subst isBreak
        exact .cons (.refl []) ih
      · obtain ⟨row, others, isLeft, isMore⟩ := rows_cons isBreak left
        obtain ⟨line, lines, isText, isWhole⟩ := rows_cons isBreak text
        rw [isLeft, isText] at ih
        rw [isMore, isWhole]
        cases ih with
        | cons first later => exact .cons (first.cons_cons c) later
  | @drop left text c noBreak _ ih =>
      obtain ⟨line, lines, isText, isWhole⟩ := rows_cons noBreak text
      rw [isText] at ih
      rw [isWhole]
      cases isLeft : Source.rows left with
      | nil => exact absurd isLeft (splitWhere_ne_nil _ _)
      | cons row others =>
          rw [isLeft] at ih
          cases ih with
          | cons first later => exact .cons (first.cons c) later

end Thins

/-!
Literals.
-/

/-- Outside comments the scanner meets this literal at the place. -/
def HasLiteral (text : List Char) (place : Nat) (literal : List Char) : Prop :=
  ∃ before after, lexemes text = before ++ .literal literal :: after ∧
    (textOf before).length = place

section

variable {text before literal after : List Char}

/-- The text before a literal and the text behind it are scanned on their own, and what is
left of them stands before the literal and behind it. -/
theorem HasLiteral.withoutComments (divided : text = before ++ literal ++ after)
    (met : HasLiteral text before.length literal) :
    withoutComments text = withoutComments before ++ literal ++ withoutComments after ∧
      HasLiteral (withoutComments text) (withoutComments before).length literal := by
  obtain ⟨parts, more, isDivision, place⟩ := met
  have areLexemes : AreLexemes (parts ++ ([.literal literal] ++ more)) :=
    isDivision ▸ areLexemes_lexemes text
  have whole : textOf parts ++ (literal ++ textOf more) = before ++ (literal ++ after) := by
    rw [← List.append_assoc before, ← divided, ← textOf_lexemes text, isDivision, textOf_append]
    rfl
  obtain ⟨rfl, sameRest⟩ := List.append_inj whole place
  obtain rfl := List.append_cancel_left sameRest
  have isBefore := areLexemes.left.withoutComments_textOf
  have isAfter := areLexemes.right.right.withoutComments_textOf
  constructor
  · rw [isBefore, isAfter, Source.withoutComments, isDivision, List.flatMap_append,
      List.flatMap_cons, List.append_assoc]
    rfl
  · refine ⟨parts.flatMap Lexeme.remains, more.flatMap Lexeme.remains, ?_, ?_⟩
    · rw [lexemes_withoutComments, isDivision, List.flatMap_append, List.flatMap_cons]
      rfl
    · rw [textOf_flatMap_remains, isBefore]

end

/-- Without its comments a script has as many lines as before, and a line has lost nothing but
characters; each literal outside comments is still there, in its place between what is left
of the texts around it; and there is nothing more to remove. -/
theorem withoutComments_retains (text : List Char) :
    (rows (withoutComments text)).length = (rows text).length ∧
    List.Forall₂ List.Sublist (rows (withoutComments text)) (rows text) ∧
    (∀ before literal after, text = before ++ literal ++ after →
      HasLiteral text before.length literal →
      withoutComments text = withoutComments before ++ literal ++ withoutComments after ∧
        HasLiteral (withoutComments text) (withoutComments before).length literal) ∧
    withoutComments (withoutComments text) = withoutComments text := by
  have lines := (Thins.withoutComments text).rows
  refine ⟨lines.length_eq, lines, ?_, withoutComments_withoutComments text⟩
  intro before literal after divided met
  exact met.withoutComments divided

/-- A quoted comment mark stays, and the comment behind it leaves its line break. -/
theorem withoutComments_quotedMark :
    "a '/*' /* '\n */ `//` // b".toList =
        "a ".toList ++ "'/*'".toList ++ " /* '\n */ `//` // b".toList ∧
      HasLiteral "a '/*' /* '\n */ `//` // b".toList 2 "'/*'".toList ∧
      withoutComments "a '/*' /* '\n */ `//` // b".toList =
        withoutComments "a ".toList ++ "'/*'".toList ++
          withoutComments " /* '\n */ `//` // b".toList ∧
      withoutComments "a '/*' /* '\n */ `//` // b".toList = "a '/*' \n `//` ".toList :=
  have divided : "a '/*' /* '\n */ `//` // b".toList =
      "a ".toList ++ "'/*'".toList ++ " /* '\n */ `//` // b".toList := by decide
  have met : HasLiteral "a '/*' /* '\n */ `//` // b".toList 2 "'/*'".toList :=
    ⟨lexemes "a ".toList, lexemes " /* '\n */ `//` // b".toList, by decide +kernel,
      by rw [textOf_lexemes]; rfl⟩
  have kept := (withoutComments_retains "a '/*' /* '\n */ `//` // b".toList).2.2.1
    "a ".toList "'/*'".toList " /* '\n */ `//` // b".toList divided met
  ⟨divided, met, kept.1, by decide +kernel⟩

end ComponentAtlas.Source
