/-
Module: ComponentAtlas.Proofs.Source.Segment
Purpose: Where a script is cut at separators.
Main exports:
  Nesting.through, IsWhole, segmentsFrom_append, segmentsFrom_eq, IsWhole.restart,
  IsBody.isWhole
-/
import ComponentAtlas.Proofs.Source.Lexeme
import ComponentAtlas.Source.Segment

namespace ComponentAtlas.Source

open ComponentAtlas.Text

section

variable {style : Separation} {nesting next : Nesting} {parts more : List Lexeme}

/-- The nesting behind some lexemes that no separator divides, or the first separator
that does. -/
def Nesting.through (style : Separation) (nesting : Nesting) (parts : List Lexeme) :
    Except Char Nesting :=
  parts.foldlM (Nesting.after style) nesting

theorem Nesting.through_cons {part : Lexeme} (after : nesting.after style part = .ok next)
    (parts : List Lexeme) : nesting.through style (part :: parts) = next.through style parts := by
  rw [through, List.foldlM_cons, after]
  rfl

theorem Nesting.through_append (first : nesting.through style parts = .ok next)
    (more : List Lexeme) : nesting.through style (parts ++ more) = next.through style more := by
  rw [through] at first ⊢
  rw [List.foldlM_append, first]
  rfl

theorem cuts_cons {part : Lexeme} (after : nesting.after style part = .ok next) :
    cuts style nesting (part :: parts) = consCut part (cuts style next parts) := by
  rw [cuts, after]

/-- Undivided lexemes belong to the first cut of what follows. -/
theorem cuts_append (through : nesting.through style parts = .ok next) (more : List Lexeme) :
    cuts style nesting (parts ++ more) = parts.foldr consCut (cuts style next more) := by
  induction parts generalizing nesting with
  | nil => cases through; rfl
  | cons part parts ih =>
      cases after : nesting.after style part with
      | error separator =>
          rw [Nesting.through, List.foldlM_cons, after] at through
          cases through
      | ok between =>
          rw [Nesting.through_cons after] at through
          rw [List.cons_append, cuts_cons after, ih through, List.foldr_cons]

theorem foldr_consCut (parts : List Lexeme) (cut : Cut) (rest : List Cut) :
    parts.foldr consCut (cut :: rest) = { cut with parts := parts ++ cut.parts } :: rest := by
  induction parts with
  | nil => rfl
  | cons part parts ih => rw [List.foldr_cons, ih, consCut, List.cons_append]

end

/-- Behind the given character no separator divides the text, and everything that opens in
it closes again. -/
structure IsWhole (style : Separation) (previous : Option Char) (text : List Char) : Prop where
  isLexed : IsLexed text
  closed : ∃ last, ({ previous := previous } : Nesting).through style (lexemes text) =
    .ok { previous := last }

/-- The segments of a text that stands behind the given character. -/
def segmentsFrom (style : Separation) (previous : Option Char) (text : List Char) :
    List Segment :=
  ((cuts style { previous := previous } (lexemes text)).map Cut.segment).filter Segment.isKept

theorem segments_eq_segmentsFrom (style : Separation) (text : List Char) :
    segments style text = segmentsFrom style none text := rfl

/-- The character is code that divides wherever nothing is open. -/
structure Divides (style : Separation) (separator : Char) : Prop where
  listed : separator ∈ style.separators
  isOrdinary : isOrdinary separator
  keepsSlash : KeepsSlash (some separator)
  notAngle : separator ≠ '<' ∧ separator ≠ '>'

instance (style : Separation) (separator : Char) : Decidable (Divides style separator) :=
  decidable_of_iff (separator ∈ style.separators ∧ isOrdinary separator ∧
      KeepsSlash (some separator) ∧ separator ≠ '<' ∧ separator ≠ '>')
    ⟨fun ⟨listed, ordinary, keeps, notAngle⟩ => ⟨listed, ordinary, keeps, notAngle⟩,
      fun ⟨listed, ordinary, keeps, notAngle⟩ => ⟨listed, ordinary, keeps, notAngle⟩⟩

section

variable {style : Separation} {previous other : Option Char} {text rest : List Char}
  {separator : Char}

theorem bracket_of_isOrdinary {c : Char} (ordinary : isOrdinary c) :
    isOpener c = false ∧ isCloser c = false := by
  simp only [isOrdinary, Bool.and_eq_true, Bool.not_eq_true'] at ordinary
  exact ⟨ordinary.1.1.2, ordinary.1.2⟩

theorem Divides.after (divides : Divides style separator) (previous : Option Char) :
    ({ previous := previous } : Nesting).after style (.code separator) = .error separator := by
  have listed := divides.listed
  simp [Nesting.after, Nesting.afterCode?, bracket_of_isOrdinary divides.isOrdinary,
    divides.notAngle, listed]

/-- A separator behind a whole text ends a segment. -/
theorem segmentsFrom_append (whole : IsWhole style previous text)
    (divides : Divides style separator) (rest : List Char) :
    segmentsFrom style previous (text ++ separator :: rest) =
      { text := text, separator := some separator } ::
        segmentsFrom style (some separator) rest := by
  obtain ⟨last, closed⟩ := whole.closed
  have follows : KeepsSlash (separator :: rest).head? := divides.keepsSlash
  have divided : lexemes (text ++ separator :: rest) =
      lexemes text ++ .code separator :: lexemes rest := by
    rw [whole.isLexed.lexemes_append fun _ => follows,
      lexemes_single (isSingle_of_isOrdinary divides.isOrdinary)]
  rw [segmentsFrom, divided, cuts_append closed, cuts, divides.after]
  simp [foldr_consCut, Cut.segment, Segment.isKept, segmentsFrom]

/-- A whole text is one segment, unless it is blank. -/
theorem segmentsFrom_eq (whole : IsWhole style previous text) :
    segmentsFrom style previous text =
      if isAllBlank text then [] else [{ text := text, separator := none }] := by
  obtain ⟨last, closed⟩ := whole.closed
  have undivided := cuts_append closed []
  rw [List.append_nil, cuts, foldr_consCut] at undivided
  rw [segmentsFrom, undivided]
  by_cases blank : isAllBlank text <;>
    simp [Cut.segment, Segment.isKept, blank]

/-- Where nothing is open, the character before a text is only asked whether type arguments
may open behind it. -/
theorem Nesting.after_restart (same : opensTypeArguments previous = opensTypeArguments other)
    (part : Lexeme) :
    ({ previous := previous } : Nesting).after style part =
      ({ previous := other } : Nesting).after style part := by
  cases part with
  | literal text => rfl
  | comment text => rfl
  | code c => simp [Nesting.after, Nesting.afterCode?, same]

theorem Nesting.through_restart (same : opensTypeArguments previous = opensTypeArguments other)
    {parts : List Lexeme} (ne_nil : parts ≠ []) :
    ({ previous := previous } : Nesting).through style parts =
      ({ previous := other } : Nesting).through style parts := by
  cases parts with
  | nil => exact absurd rfl ne_nil
  | cons part parts =>
      rw [Nesting.through, List.foldlM_cons, Nesting.after_restart same, ← List.foldlM_cons]
      rfl

theorem IsWhole.restart (whole : IsWhole style previous text)
    (same : opensTypeArguments previous = opensTypeArguments other) :
    IsWhole style other text := by
  obtain ⟨last, through⟩ := whole.closed
  by_cases none : lexemes text = []
  · refine ⟨whole.isLexed, other, ?_⟩
    rw [none]
    rfl
  · exact ⟨whole.isLexed, last, by rwa [← Nesting.through_restart same none]⟩

end

/-!
Where type arguments do not nest, closed code without separators is whole.
-/

section

variable {style : Separation} {nesting : Nesting} {c : Char}

theorem Nesting.after_opener (opener : isOpener c) :
    nesting.after style (.code c) =
      .ok { nesting with brackets := nesting.brackets + 1, previous := some c } := by
  simp [after, afterCode?, opener]

theorem Nesting.after_closer (closer : isCloser c) :
    nesting.after style (.code c) =
      .ok { nesting with brackets := nesting.brackets - 1, previous := some c } := by
  simp [after, afterCode?, isOpener_of_isCloser closer, closer]

theorem Nesting.after_code (noLists : style.typeArguments = false) (opener : isOpener c = false)
    (closer : isCloser c = false) (kept : nesting.brackets = 0 → c ∉ style.separators) :
    nesting.after style (.code c) = .ok { nesting with previous := some c } := by
  have notCut : ¬ ((nesting.brackets = 0 ∧ nesting.angles = 0) ∧ c ∈ style.separators) :=
    fun ⟨⟨outside, _⟩, member⟩ => kept outside member
  simp [after, afterCode?, noLists, opener, closer, if_neg notCut]

/-- Closed code leaves the number of open brackets as it was. -/
theorem IsBody.through (noLists : style.typeArguments = false) (noSlash : '/' ∉ style.separators) :
    {avoid text : List Char} → IsBody avoid text → ∀ (brackets : Nat) (previous : Option Char),
      (brackets = 0 → style.separators ⊆ avoid) →
      ∃ last, ({ brackets := brackets, previous := previous } : Nesting).through style
        (lexemes text) = .ok { brackets := brackets, previous := last }
  | _, _, .nil _, _, previous, _ => ⟨previous, by rw [lexemes_nil]; rfl⟩
  | _, _, .ordinary c plain kept later, brackets, previous, avoids => by
      have ⟨opener, closer⟩ := bracket_of_isOrdinary plain
      rw [lexemes_single (isSingle_of_isOrdinary plain),
        Nesting.through_cons (Nesting.after_code noLists opener closer
          fun outside member => kept (avoids outside member))]
      exact later.through noLists noSlash brackets (some c) avoids
  | _, _, .slash alone later, brackets, previous, avoids => by
      rw [lexemes_code rfl fun _ => alone,
        Nesting.through_cons (Nesting.after_code noLists rfl rfl fun _ => noSlash)]
      exact later.through noLists noSlash brackets (some '/') avoids
  | _, _, .lineComment inside onLine later, brackets, previous, avoids => by
      rw [lexemes_lineComment onLine, Nesting.through_cons rfl]
      exact later.through noLists noSlash brackets _ avoids
  | _, _, .blockComment inside unended later, brackets, previous, avoids => by
      rw [lexemes_blockComment unended, Nesting.through_cons rfl]
      exact later.through noLists noSlash brackets _ avoids
  | _, _, .quoted quote line inner later, brackets, previous, avoids => by
      rw [lexemes_literal (.inl ⟨line, inner⟩), Nesting.through_cons rfl]
      exact later.through noLists noSlash brackets _ avoids
  | _, _, .template inner later, brackets, previous, avoids => by
      rw [lexemes_literal (.inr ⟨rfl, inner⟩), Nesting.through_cons rfl]
      exact later.through noLists noSlash brackets _ avoids
  | _, _, @IsBody.group _ inside rest opener closer isPair inner later, brackets, previous,
      avoids => by
      obtain ⟨isOpener, isCloser⟩ := isBracket_of_isPair isPair
      have follows : KeepsSlash (closer :: rest).head? := keepsSlash_of_isCloser isCloser
      -- Inside the brackets no character divides.
      obtain ⟨last, inside⟩ := inner.through noLists noSlash (brackets + 1) (some opener)
        (fun outside => absurd outside (Nat.succ_ne_zero _))
      rw [List.cons_append, lexemes_single (isSingle_of_isOpener isOpener),
        Nesting.through_cons (Nesting.after_opener isOpener),
        inner.isLexed.lexemes_append fun _ => follows, Nesting.through_append inside,
        lexemes_single (isSingle_of_isCloser isCloser),
        Nesting.through_cons (Nesting.after_closer isCloser)]
      exact later.through noLists noSlash brackets (some closer) avoids

theorem IsBody.isWhole {avoid text : List Char} (body : IsBody avoid text)
    (noLists : style.typeArguments = false) (noSlash : '/' ∉ style.separators)
    (avoids : style.separators ⊆ avoid) (previous : Option Char) :
    IsWhole style previous text :=
  ⟨body.isLexed, body.through noLists noSlash 0 previous fun _ => avoids⟩

end

end ComponentAtlas.Source
