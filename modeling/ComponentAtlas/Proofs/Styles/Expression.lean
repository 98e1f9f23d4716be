/-
Module: ComponentAtlas.Proofs.Styles.Expression
Purpose: What a class attribute with an expression in braces contributes.
Main exports:
  Literal, IsCodeWith, IsCodeWith.literals_append, IsCodeWith.literals_eq_iff,
  stylesAt_expression
-/
import ComponentAtlas.Proofs.Styles.Attribute
import ComponentAtlas.Proofs.Styles.Interpolation

namespace ComponentAtlas.Styles

open ComponentAtlas.Text
open ComponentAtlas.Source

/-!
The end of the expression is found by a scanner that knows comments.  Its literals are then
collected by another one, which does not.
-/

/-- A literal of an expression. -/
inductive Literal where
  | quoted (quote : Char) (inside : List Char)
  | template (parts : List TemplatePart)
deriving Repr, DecidableEq

namespace Literal

/-- What stands between the quotes. -/
def inside : Literal → List Char
  | quoted _ inside => inside
  | template parts => templateText parts

def quote : Literal → Char
  | quoted quote _ => quote
  | template _ => '`'

/-- The literal as it is written. -/
def text (literal : Literal) : List Char := literal.quote :: literal.inside ++ [literal.quote]

/-- What the literal is read as: its inside with a space for each interpolation. -/
def content : Literal → List Char
  | quoted _ inside => inside
  | template parts => spacedText parts

/-- The literal is closed, and only its interpolations may hold a backslash. -/
def IsWritten : Literal → Prop
  | quoted quote inside => isLineQuote quote ∧ ∀ c ∈ inside, c ≠ quote ∧ c ≠ '\\' ∧ c ≠ '\n'
  | template parts => AreParts parts ∧ ∀ c, .escape c ∉ parts

end Literal

/-- Code in which every bracket, literal and comment is closed, with its literals and its comments
in their order.  What stands in an interpolation belongs to its literal. -/
inductive IsCodeWith : List Char → List Literal → List (List Char) → Prop where
  | nil : IsCodeWith [] [] []
  | ordinary {rest : List Char} {found : List Literal} {comments : List (List Char)} (c : Char)
      (isOrdinary : isOrdinary c) (later : IsCodeWith rest found comments) :
      IsCodeWith (c :: rest) found comments
  | slash {rest : List Char} {found : List Literal} {comments : List (List Char)}
      (alone : KeepsSlash rest.head?) (later : IsCodeWith rest found comments) :
      IsCodeWith ('/' :: rest) found comments
  | lineComment {rest : List Char} {found : List Literal} {comments : List (List Char)}
      (inside : List Char) (onLine : '\n' ∉ inside)
      (later : IsCodeWith ('\n' :: rest) found comments) :
      IsCodeWith ('/' :: '/' :: inside ++ '\n' :: rest) found (('/' :: '/' :: inside) :: comments)
  | blockComment {rest : List Char} {found : List Literal} {comments : List (List Char)}
      (inside : List Char) (unended : ¬ ['*', '/'] <:+: inside)
      (later : IsCodeWith rest found comments) :
      IsCodeWith ('/' :: '*' :: inside ++ '*' :: '/' :: rest) found
        (('/' :: '*' :: inside ++ ['*', '/']) :: comments)
  | literal {rest : List Char} {found : List Literal} {comments : List (List Char)}
      (literal : Literal) (isWritten : literal.IsWritten)
      (later : IsCodeWith rest found comments) :
      IsCodeWith (literal.text ++ rest) (literal :: found) comments
  | group {inside rest : List Char} {first found : List Literal}
      {remarks comments : List (List Char)} (opener closer : Char)
      (isPair : IsPair opener closer) (inner : IsCodeWith inside first remarks)
      (later : IsCodeWith rest found comments) :
      IsCodeWith (opener :: inside ++ closer :: rest) (first ++ found) (remarks ++ comments)

/-- None of the texts holds a quote. -/
def HoldNoQuote (texts : List (List Char)) : Prop := ∀ text ∈ texts, ∀ c ∈ text, isQuote c = false

instance (texts : List (List Char)) : Decidable (HoldNoQuote texts) :=
  letI := fun text : List Char => List.decidableBAll (isQuote · = false) text
  List.decidableBAll _ texts

section

variable {literal : Literal} {code rest : List Char} {found : List Literal}
  {comments : List (List Char)} {c : Char}

theorem Literal.text_append (literal : Literal) (rest : List Char) :
    literal.text ++ rest = literal.quote :: literal.inside ++ literal.quote :: rest := by
  simp [Literal.text]

namespace Literal.IsWritten

theorem isInside (isWritten : literal.IsWritten) : IsInside literal.quote literal.inside := by
  cases literal with
  | quoted quote inside => exact .inl ⟨isWritten.1, .of_plain isWritten.2⟩
  | template parts => exact .inr ⟨rfl, isWritten.1.isTemplate⟩

theorem literalText_text (isWritten : literal.IsWritten) :
    literalText literal.text = literal.content := by
  cases literal with
  | quoted quote inside => exact literalText_closed isWritten.1 inside
  | template parts =>
      obtain ⟨areParts, noEscape⟩ := isWritten
      have noOpening : ¬ EscapesOpening parts := by
        rintro ⟨front, back, rfl⟩
        exact noEscape '$' (by simp)
      have whole := @withoutInterpolations_append [] parts (by simpa using areParts) noOpening
        (by simp)
      rw [List.append_nil] at whole
      have nothing : withoutInterpolations (templateText []) = [] := by
        rw [templateText, List.flatMap_nil, withoutInterpolations]
      rw [nothing, List.append_nil] at whole
      simpa [literalText, text, Literal.quote, Literal.inside, content] using whole

end Literal.IsWritten

theorem IsCodeWith.isBody (isCode : IsCodeWith code found comments) : IsBody [] code := by
  induction isCode with
  | nil => exact .nil _
  | ordinary c plain _ ih => exact .ordinary c plain (by simp) ih
  | slash alone _ ih => exact .slash alone ih
  | lineComment inside onLine _ ih => exact .lineComment inside onLine ih
  | blockComment inside unended _ ih => exact .blockComment inside unended ih
  | literal literal isWritten _ ih =>
      rw [literal.text_append]
      cases literal with
      | quoted quote inside => exact .quoted quote isWritten.1 (.of_plain isWritten.2) ih
      | template parts => exact .template isWritten.1.isTemplate ih
  | group opener closer isPair _ _ first ih => exact .group opener closer isPair first ih

theorem literals_literal (isWritten : literal.IsWritten) (rest : List Char) :
    literals (literal.text ++ rest) = literal.text :: literals rest := by
  have regrouped : literal.inside ++ literal.quote :: rest =
      (literal.inside ++ [literal.quote]) ++ rest := by simp
  have length : literal.inside.length + 1 = (literal.inside ++ [literal.quote]).length := by simp
  rw [literal.text_append, List.cons_append, literals, if_pos isWritten.isInside.isQuote,
    literalLength_of_isInside isWritten.isInside]
  simp only []
  rw [regrouped, length, List.take_left, List.drop_left]
  rfl

/-- Where no comment holds a quote the literals are collected, and nothing else. -/
theorem IsCodeWith.literals_append (isCode : IsCodeWith code found comments)
    (quiet : HoldNoQuote comments) (rest : List Char) :
    literals (code ++ rest) = found.map Literal.text ++ literals rest := by
  induction isCode generalizing rest with
  | nil => rfl
  | ordinary c plain _ ih =>
      exact (literals_cons (isSingle_of_isOrdinary plain).1 _).trans (ih quiet rest)
  | slash _ _ ih => exact (literals_cons rfl _).trans (ih quiet rest)
  | @lineComment more found comments inside _ _ ih =>
      rw [HoldNoQuote, List.forall_mem_cons] at quiet
      have regrouped : '/' :: '/' :: inside ++ '\n' :: more ++ rest =
          ('/' :: '/' :: inside) ++ ('\n' :: more ++ rest) := by simp
      rw [regrouped, Styles.literals_append quiet.1]
      exact ih quiet.2 rest
  | @blockComment more found comments inside _ _ ih =>
      rw [HoldNoQuote, List.forall_mem_cons] at quiet
      have regrouped : '/' :: '*' :: inside ++ '*' :: '/' :: more ++ rest =
          ('/' :: '*' :: inside ++ ['*', '/']) ++ (more ++ rest) := by simp
      rw [regrouped, Styles.literals_append quiet.1]
      exact ih quiet.2 rest
  | @literal more found comments literal isWritten _ ih =>
      rw [List.append_assoc, literals_literal isWritten, ih quiet rest]
      rfl
  | @group inside more first found remarks comments opener closer isPair _ _ inner ih =>
      rw [HoldNoQuote, List.forall_mem_append] at quiet
      obtain ⟨isOpener, isCloser⟩ := isBracket_of_isPair isPair
      have regrouped : opener :: inside ++ closer :: more ++ rest =
          opener :: (inside ++ closer :: (more ++ rest)) := by simp
      rw [regrouped, literals_cons (isSingle_of_isOpener isOpener).1, inner quiet.1,
        literals_cons (isSingle_of_isCloser isCloser).1, ih quiet.2, List.map_append,
        List.append_assoc]

theorem IsCodeWith.literalText_text (isCode : IsCodeWith code found comments) :
    ∀ literal ∈ found, literalText literal.text = literal.content := by
  induction isCode with
  | nil => simp
  | ordinary _ _ _ ih => exact ih
  | slash _ _ ih => exact ih
  | lineComment _ _ _ ih => exact ih
  | blockComment _ _ _ ih => exact ih
  | literal literal isWritten _ ih =>
      exact List.forall_mem_cons.mpr ⟨isWritten.literalText_text, ih⟩
  | group _ _ _ _ _ inner ih => exact List.forall_mem_append.mpr ⟨inner, ih⟩

/-!
A quote that the collector meets is in what it collects.  So it collects too much when a comment
holds one.
-/

theorem countP_literals (text : List Char) :
    (literals text).flatten.countP isQuote = text.countP isQuote := by
  fun_induction literals text with
  | case1 => rfl
  | case2 c rest isQuote size ih =>
      rw [List.flatten_cons, List.countP_append, ih, ← List.countP_append, List.cons_append,
        List.take_append_drop]
  | case3 c rest notQuote ih =>
      rw [ih, List.countP_cons_of_neg notQuote]

theorem IsCodeWith.countP_eq (isCode : IsCodeWith code found comments) :
    code.countP isQuote =
      (found.map Literal.text).flatten.countP isQuote + comments.flatten.countP isQuote := by
  induction isCode with
  | nil => rfl
  | ordinary c plain _ ih =>
      rw [List.countP_cons_of_neg (by simp [(isSingle_of_isOrdinary plain).1]), ih]
  | slash _ _ ih => rw [List.countP_cons_of_neg (by decide), ih]
  | lineComment inside _ _ ih =>
      rw [List.countP_append, ih]
      simp only [List.flatten_cons, List.countP_append]
      omega
  | @blockComment more found comments inside _ _ ih =>
      have regrouped : '/' :: '*' :: inside ++ '*' :: '/' :: more =
          ('/' :: '*' :: inside ++ ['*', '/']) ++ more := by simp
      rw [regrouped, List.countP_append, ih]
      simp only [List.flatten_cons, List.countP_append]
      omega
  | literal literal _ _ ih =>
      rw [List.countP_append, ih]
      simp only [List.map_cons, List.flatten_cons, List.countP_append]
      omega
  | group opener closer isPair _ _ inner ih =>
      obtain ⟨isOpener, isCloser⟩ := isBracket_of_isPair isPair
      rw [List.cons_append,
        List.countP_cons_of_neg (by simp [(isSingle_of_isOpener isOpener).1]),
        List.countP_append, inner,
        List.countP_cons_of_neg (by simp [(isSingle_of_isCloser isCloser).1]), ih]
      simp only [List.map_append, List.flatten_append, List.countP_append]
      omega

theorem holdNoQuote_iff {texts : List (List Char)} :
    HoldNoQuote texts ↔ texts.flatten.countP isQuote = 0 := by
  rw [List.countP_eq_zero]
  simp only [HoldNoQuote, List.mem_flatten, Bool.not_eq_true]
  exact ⟨fun quiet c ⟨text, member, inText⟩ => quiet text member c inText,
    fun quiet text member c inText => quiet c ⟨text, member, inText⟩⟩

/-- The literals are collected exactly when no comment holds a quote. -/
theorem IsCodeWith.literals_eq_iff (isCode : IsCodeWith code found comments) :
    literals code = found.map Literal.text ↔ HoldNoQuote comments := by
  constructor
  · intro same
    have count := isCode.countP_eq
    rw [← countP_literals, same] at count
    rw [holdNoQuote_iff]
    omega
  · intro quiet
    have whole := isCode.literals_append quiet []
    have nothing : literals [] = [] := by rw [literals]
    rwa [List.append_nil, nothing, List.append_nil] at whole

/-!
The words of the literals, one after the other.
-/

theorem words_joinWith (pieces : List (List Char)) :
    words (joinWith [' '] pieces) = pieces.flatMap words := by
  induction pieces with
  | nil => rfl
  | cons piece pieces ih =>
      cases pieces with
      | nil => simp [joinWith]
      | cons next pieces =>
          have divided : joinWith [' '] (piece :: next :: pieces) =
              piece ++ ' ' :: joinWith [' '] (next :: pieces) := by simp [joinWith]
          rw [divided, words_append_blank rfl, ih]
          rfl

theorem valueStyles_brace (body : IsBody [] code) (rest : List Char) :
    valueStyles ('{' :: code ++ '}' :: rest) =
      ((literals code).flatMap fun literal => words (literalText literal)).map classStyle := by
  rw [valueStyles, List.cons_append, valueText?_brace, groupBody_of_isBody body rfl]
  cases literals code with
  | nil => rfl
  | cons first others =>
      have joined := words_joinWith ((first :: others).map literalText)
      rw [List.flatMap_map] at joined
      rw [← joined]
      simp

end

/-- A class attribute with an expression in braces contributes the words of the literals that are
collected from it.  These are the literals of the expression exactly when no comment of it holds
a quote, and then the words are those of the literals without their interpolations. -/
theorem stylesAt_expression {source lead code after : List Char} {found : List Literal}
    {comments : List (List Char)} (has : HasAttribute source lead ('{' :: code ++ '}' :: after))
    (isCode : IsCodeWith code found comments) :
    (List.range source.length).flatMap (stylesAt source) = classStyles source ∧
      stylesAt source lead.length =
        ((literals code).flatMap fun literal => words (literalText literal)).map classStyle ∧
      (literals code = found.map Literal.text ↔ HoldNoQuote comments) ∧
      (HoldNoQuote comments → stylesAt source lead.length =
        (found.flatMap fun literal => words literal.content).map classStyle) := by
  have noBlank : ∀ c ∈ ('{' :: code ++ '}' :: after).head?, isBlank c = false := by
    intro c isHead
    cases isHead
    rfl
  have collected := stylesAt_of_hasAttribute has noBlank
  rw [valueStyles_brace isCode.isBody] at collected
  refine ⟨flatMap_stylesAt source, collected, isCode.literals_eq_iff, fun quiet => ?_⟩
  rw [collected, isCode.literals_eq_iff.mpr quiet, List.flatMap_map]
  refine congrArg _ (List.flatMap_congr fun literal member => ?_)
  rw [isCode.literalText_text literal member]

/-- A choice between a quoted literal and a template, with a comment behind its condition. -/
def choice (comment : String) : List Char :=
  "on/*".toList ++ comment.toList ++ "*/?'a  b':`c$\x7bf('d')\x7de`".toList

def choiceLiterals : List Literal :=
  [.quoted '\'' "a  b".toList, .template [.char 'c', .interpolation "f('d')".toList, .char 'e']]

theorem isCodeWith_choice {comment : String} (unended : ¬ ['*', '/'] <:+: comment.toList) :
    IsCodeWith (choice comment) choiceLiterals ['/' :: '*' :: comment.toList ++ ['*', '/']] := by
  have call : IsBody [] "f('d')".toList :=
    .ordinary 'f' rfl (by simp)
      (.group '(' ')' (by decide) (.quoted '\'' rfl (.char 'd' (by decide) .nil) (.nil _)) (.nil _))
  have areParts : AreParts [.char 'c', .interpolation "f('d')".toList, .char 'e'] :=
    .char _ (by decide) (by decide) (.interpolation call (.char _ (by decide) (by decide) .nil))
  have isQuoted : (Literal.quoted '\'' "a  b".toList).IsWritten :=
    ⟨rfl, forall_mem_of_all (by decide)⟩
  have isTemplate : (Literal.template [.char 'c', .interpolation "f('d')".toList,
      .char 'e']).IsWritten := ⟨areParts, by simp⟩
  have behind : IsCodeWith "?'a  b':`c$\x7bf('d')\x7de`".toList choiceLiterals [] :=
    .ordinary '?' rfl (.literal _ isQuoted (.ordinary ':' rfl (.literal _ isTemplate .nil)))
  have whole := IsCodeWith.ordinary 'o' rfl
    (.ordinary 'n' rfl (.blockComment comment.toList unended behind))
  have regrouped : choice comment = 'o' :: 'n' :: ('/' :: '*' :: comment.toList ++
      '*' :: '/' :: "?'a  b':`c$\x7bf('d')\x7de`".toList) := by simp [choice]
  rwa [regrouped]

/-- A script with a class attribute whose value is the choice. -/
def choiceScript (comment : String) : List Char :=
  "<p ".toList ++ (attributeText "className".toList [] [] ++
    ('{' :: choice comment ++ '}' :: "/>".toList))

theorem hasAttribute_choiceScript (comment : String) :
    HasAttribute (choiceScript comment) "<p ".toList
      ('{' :: choice comment ++ '}' :: "/>".toList) :=
  ⟨by decide, "className", by decide, [], [], rfl, rfl, rfl⟩

/-- The words of a comment do no harm, but from an apostrophe on everything is read wrongly. -/
theorem stylesAt_choiceScript :
    stylesAt (choiceScript "off") 3 =
        ["a".toList, "b".toList, "c".toList, "e".toList].map classStyle ∧
      stylesAt (choiceScript "isn't") 3 =
        ["t*/?".toList, ":`c$\x7bf(".toList, ")\x7de`".toList].map classStyle ∧
      literals (choice "isn't") ≠ choiceLiterals.map Literal.text := by
  obtain ⟨-, -, -, quiet⟩ := stylesAt_expression (hasAttribute_choiceScript "off")
    (isCodeWith_choice (by decide))
  obtain ⟨-, collected, all, -⟩ := stylesAt_expression (hasAttribute_choiceScript "isn't")
    (isCodeWith_choice (by decide))
  refine ⟨quiet (by decide), ?_, fun same => absurd (all.mp same) (by decide)⟩
  exact collected.trans (by decide +kernel)

end ComponentAtlas.Styles
