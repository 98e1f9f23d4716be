/-
Module: ComponentAtlas.Proofs.Styles.Interpolation
Purpose: What is left of the inside of a template literal without its interpolations.
Main exports:
  TemplatePart, AreParts, EscapesOpening, withoutInterpolations_cons,
  withoutInterpolations_eq_iff
-/
import ComponentAtlas.Proofs.Source.Lexeme
import ComponentAtlas.Styles.ClassAttribute

namespace ComponentAtlas.Styles

open ComponentAtlas.Source

/-!
The scanner that finds the end of a template literal takes a backslash and the character
behind it as a pair.  Interpolations are removed by looking for a dollar sign and a brace, and
the dollar sign may be the second half of such a pair.
-/

/-- A part of the inside of a template literal. -/
inductive TemplatePart where
  /-- A backslash and the character that it escapes. -/
  | escape (c : Char)
  | char (c : Char)
  /-- The code between the braces of an interpolation. -/
  | interpolation (code : List Char)
deriving Repr, DecidableEq

/-- The part as it is written. -/
def TemplatePart.text : TemplatePart → List Char
  | .escape c => ['\\', c]
  | .char c => [c]
  | .interpolation code => '$' :: '{' :: code ++ ['}']

/-- The part, or a space in place of an interpolation. -/
def TemplatePart.spaced : TemplatePart → List Char
  | .interpolation _ => [' ']
  | part => part.text

def templateText (parts : List TemplatePart) : List Char := parts.flatMap TemplatePart.text

/-- The inside of the literal with a space for each interpolation and all else kept. -/
def spacedText (parts : List TemplatePart) : List Char := parts.flatMap TemplatePart.spaced

/-- The parts are those that the scanner sees: a backquote and a backslash stand only in
escapes and in interpolations, an opening brace stands behind a dollar sign only where an
interpolation starts or the dollar sign is escaped, and the code of an interpolation is
closed. -/
inductive AreParts : List TemplatePart → Prop where
  | nil : AreParts []
  | escape {rest : List TemplatePart} (c : Char) (later : AreParts rest) :
      AreParts (.escape c :: rest)
  | char {rest : List TemplatePart} (c : Char) (plain : c ≠ '`' ∧ c ≠ '\\')
      (alone : c = '$' → (templateText rest).head? ≠ some '{') (later : AreParts rest) :
      AreParts (.char c :: rest)
  | interpolation {rest : List TemplatePart} {code : List Char} (inner : IsBody [] code)
      (later : AreParts rest) : AreParts (.interpolation code :: rest)

/-- A brace follows an escaped dollar sign, so that the two look like the start of an
interpolation. -/
def EscapesOpening (parts : List TemplatePart) : Prop :=
  ∃ front back, parts = front ++ .escape '$' :: .char '{' :: back

section

variable {part : TemplatePart} {parts rest : List TemplatePart} {code text : List Char}

@[simp] theorem templateText_cons (part : TemplatePart) (rest : List TemplatePart) :
    templateText (part :: rest) = part.text ++ templateText rest := rfl

@[simp] theorem spacedText_cons (part : TemplatePart) (rest : List TemplatePart) :
    spacedText (part :: rest) = part.spaced ++ spacedText rest := rfl

/-- The parts make up the inside of a template literal. -/
theorem AreParts.isTemplate (areParts : AreParts parts) : IsTemplate (templateText parts) := by
  induction areParts with
  | nil => exact .nil
  | escape c _ ih => exact .escape c ih
  | char c plain alone _ ih => exact .char c plain alone ih
  | @interpolation rest code inner _ ih =>
      have divided : templateText (.interpolation code :: rest) =
          '$' :: '{' :: code ++ '}' :: templateText rest := by simp [TemplatePart.text]
      rw [divided]
      exact .interpolation inner ih

theorem AreParts.tail (areParts : AreParts (part :: rest)) : AreParts rest := by
  cases areParts with
  | escape _ later => exact later
  | char _ _ _ later => exact later
  | interpolation _ later => exact later

/-- A text whose first character is a brace does not start with an escape or with an
interpolation. -/
theorem eq_char_of_head? {c : Char} (isHead : (templateText rest).head? = some c)
    (other : c ≠ '\\' ∧ c ≠ '$') : ∃ back, rest = .char c :: back := by
  cases rest with
  | nil => cases isHead
  | cons part back =>
      cases part with
      | escape d =>
          cases isHead
          exact absurd rfl other.1
      | interpolation code =>
          cases isHead
          exact absurd rfl other.2
      | char d =>
          cases isHead
          exact ⟨back, rfl⟩

theorem escapesOpening_cons_iff :
    EscapesOpening (part :: rest) ↔
      part = .escape '$' ∧ rest.head? = some (.char '{') ∨ EscapesOpening rest := by
  constructor
  · rintro ⟨front, back, divided⟩
    cases front with
    | nil =>
        cases divided
        exact .inl ⟨rfl, rfl⟩
    | cons first front =>
        cases divided
        exact .inr ⟨front, back, rfl⟩
  · rintro (⟨rfl, isBrace⟩ | ⟨front, back, rfl⟩)
    · obtain ⟨back, rfl⟩ := List.head?_eq_some_iff.mp isBrace
      exact ⟨[], back, rfl⟩
    · exact ⟨part :: front, back, rfl⟩

/-- A character that does not open an interpolation is kept. -/
theorem withoutInterpolations_char {c : Char} (alone : c = '$' → text.head? ≠ some '{') :
    withoutInterpolations (c :: text) = c :: withoutInterpolations text := by
  refine withoutInterpolations.eq_3 c text ?_
  rintro more rfl rfl
  exact alone rfl rfl

theorem withoutInterpolations_backslash (text : List Char) :
    withoutInterpolations ('\\' :: text) = '\\' :: withoutInterpolations text :=
  withoutInterpolations_char fun isDollar => absurd isDollar (by decide)

/-- An interpolation is taken as a whole, whatever literals and brackets its code holds. -/
theorem withoutInterpolations_code (inner : IsBody [] code) (text : List Char) :
    withoutInterpolations ('$' :: '{' :: (code ++ '}' :: text)) =
      ' ' :: withoutInterpolations text := by
  have length : groupLength? (code ++ '}' :: text) = some code.length :=
    groupLength?_of_passes (inner.passes_closer rfl) rfl
  have rest : (code ++ '}' :: text).drop (code.length + 1) = text := by simp
  rw [withoutInterpolations, length]
  exact congrArg (' ' :: withoutInterpolations ·) rest

/-- A part leaves what it should, unless it is an escaped dollar sign in front of a brace. -/
theorem withoutInterpolations_cons (areParts : AreParts (part :: rest))
    (apart : ¬ (part = .escape '$' ∧ rest.head? = some (.char '{'))) :
    withoutInterpolations (templateText (part :: rest)) =
      part.spaced ++ withoutInterpolations (templateText rest) := by
  cases areParts with
  | char c plain alone later => exact withoutInterpolations_char alone
  | @interpolation _ code inner later =>
      have divided : templateText (.interpolation code :: rest) =
          '$' :: '{' :: (code ++ '}' :: templateText rest) := by simp [TemplatePart.text]
      rw [divided, withoutInterpolations_code inner]
      rfl
  | escape c later =>
      have noOpening : c = '$' → (templateText rest).head? ≠ some '{' := by
        rintro rfl isBrace
        obtain ⟨back, rfl⟩ := eq_char_of_head? isBrace (by decide)
        exact apart ⟨rfl, rfl⟩
      have escaped := withoutInterpolations_char noOpening
      exact (withoutInterpolations_backslash _).trans (congrArg ('\\' :: ·) escaped)

/-- Up to an escaped dollar sign in front of a brace each part leaves what it should. -/
theorem withoutInterpolations_append {front : List TemplatePart}
    (areParts : AreParts (front ++ rest)) (none : ¬ EscapesOpening front)
    (apart : rest.head? ≠ some (.char '{')) :
    withoutInterpolations (templateText (front ++ rest)) =
      spacedText front ++ withoutInterpolations (templateText rest) := by
  induction front with
  | nil => rfl
  | cons part front ih =>
      rw [escapesOpening_cons_iff, not_or] at none
      have notHere : ¬ (part = .escape '$' ∧ (front ++ rest).head? = some (.char '{')) := by
        rintro ⟨isEscape, isBrace⟩
        cases front with
        | nil => exact apart isBrace
        | cons next front => exact none.1 ⟨isEscape, isBrace⟩
      rw [List.cons_append] at areParts ⊢
      rw [withoutInterpolations_cons areParts notHere, ih areParts.tail none.2, spacedText_cons,
        List.append_assoc]

/-- A dollar sign and a brace leave a space, or nothing together with all that follows. -/
theorem withoutInterpolations_opening (text : List Char) :
    (withoutInterpolations ('$' :: '{' :: text)).head? ≠ some '$' := by
  rw [withoutInterpolations]
  cases groupLength? text <;> simp

/-- From an escaped dollar sign in front of a brace on, something else is left. -/
theorem withoutInterpolations_ne (areParts : AreParts parts) (escapes : EscapesOpening parts) :
    withoutInterpolations (templateText parts) ≠ spacedText parts := by
  induction parts with
  | nil =>
      obtain ⟨front, back, none⟩ := escapes
      cases front <;> cases none
  | cons part rest ih =>
      by_cases here : part = .escape '$' ∧ rest.head? = some (.char '{')
      · obtain ⟨rfl, isBrace⟩ := here
        obtain ⟨back, rfl⟩ := List.head?_eq_some_iff.mp isBrace
        intro same
        have sameRest := List.cons.inj ((withoutInterpolations_backslash _).symm.trans same)
        exact withoutInterpolations_opening _ (congrArg List.head? sameRest.2)
      · rw [withoutInterpolations_cons areParts here, spacedText_cons]
        rcases escapesOpening_cons_iff.mp escapes with isHere | later
        · exact absurd isHere here
        · exact fun same => ih areParts.tail later (List.append_cancel_left same)

end

/-- A template literal ends at its closing quote, and of the text between its quotes a space
is left for each interpolation and every other character, exactly when no escaped dollar sign
stands in front of a brace.  From the first one on the text is read as if it started an
interpolation there. -/
theorem withoutInterpolations_eq_iff {parts : List TemplatePart} (areParts : AreParts parts) :
    (∀ before after : List Char,
      literalEnd? (before ++ '`' :: templateText parts ++ '`' :: after) before.length =
        some (before.length + 1 + (templateText parts).length + 1)) ∧
    (withoutInterpolations (templateText parts) = spacedText parts ↔ ¬ EscapesOpening parts) ∧
    ∀ front back, parts = front ++ .escape '$' :: .char '{' :: back → ¬ EscapesOpening front →
      withoutInterpolations (templateText parts) =
        spacedText front ++ '\\' :: withoutInterpolations ('$' :: '{' :: templateText back) := by
  refine ⟨fun before after => ?_, ⟨?_, fun none => ?_⟩, ?_⟩
  · have inside : IsInside '`' (templateText parts) := .inr ⟨rfl, areParts.isTemplate⟩
    have length := @literalLength_of_isInside _ after _ inside
    simp [literalEnd?, length, Nat.add_assoc]
  · exact fun same escapes => withoutInterpolations_ne areParts escapes same
  · have whole := @withoutInterpolations_append [] _ (by simpa using areParts) none (by simp)
    simpa [templateText, withoutInterpolations] using whole
  · rintro front back rfl none
    rw [withoutInterpolations_append areParts none (by simp)]
    exact congrArg (spacedText front ++ ·) (withoutInterpolations_backslash _)

/-- An escaped backslash leaves an interpolation what it is; an escaped dollar sign does
not keep the braces behind it. -/
def escapedParts : List TemplatePart :=
  [.escape '\\', .interpolation "f(\x7b\x7d)".toList, .escape '$', .char '{', .char 'a', .char '}']

theorem areParts_escapedParts : AreParts escapedParts := by
  have call : IsBody [] "f(\x7b\x7d)".toList :=
    .ordinary 'f' rfl (by simp)
      (.group '(' ')' (by decide) (.group '{' '}' (by decide) (.nil _) (.nil _)) (.nil _))
  exact .escape _ (.interpolation call (.escape _ (.char _ (by decide) (by decide)
    (.char _ (by decide) (by decide) (.char _ (by decide) (by decide) .nil)))))

/-- The scanner passes over the escaped dollar sign, and yet the braces behind it are lost. -/
theorem withoutInterpolations_escapedParts :
    AreParts escapedParts ∧
      literalEnd? ("x = ".toList ++ '`' :: templateText escapedParts ++ '`' :: ";".toList) 4 =
        some 21 ∧
      spacedText escapedParts = "\\\\ \\$\x7ba\x7d".toList ∧
      withoutInterpolations (templateText escapedParts) = "\\\\ \\ ".toList ∧
      withoutInterpolations (templateText escapedParts) ≠ spacedText escapedParts := by
  obtain ⟨ends, same, -⟩ := withoutInterpolations_eq_iff areParts_escapedParts
  refine ⟨areParts_escapedParts, ends "x = ".toList ";".toList, by decide, by decide +kernel, ?_⟩
  exact fun isSame => same.mp isSame
    ⟨[.escape '\\', .interpolation "f(\x7b\x7d)".toList], [.char 'a', .char '}'], rfl⟩

end ComponentAtlas.Styles
