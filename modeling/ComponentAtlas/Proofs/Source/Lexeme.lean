/-
Module: ComponentAtlas.Proofs.Source.Lexeme
Purpose: The lexemes of closed texts, put together, and what is left of a closed text
  without its comments.
Main exports:
  IsInside, IsSingle, IsLexed, EndsInSlash, IsLexed.lexemes_append, IsBody.append,
  IsBody.withoutComments, IsGap
-/
import ComponentAtlas.Proofs.Source.Enclosure
import ComponentAtlas.Proofs.Text.Words
import ComponentAtlas.Source.Lexeme

namespace ComponentAtlas.Source

open ComponentAtlas.Text

/-- The text can stand between two quotes as one literal. -/
def IsInside (quote : Char) (inside : List Char) : Prop :=
  isLineQuote quote ∧ IsQuoted quote inside ∨ quote = '`' ∧ IsTemplate inside

theorem IsInside.isQuote {quote : Char} {inside : List Char} (literal : IsInside quote inside) :
    isQuote quote := by
  rcases literal with ⟨line, _⟩ | ⟨rfl, _⟩
  · exact isQuote_of_isLineQuote line
  · rfl

theorem isQuote_slash : isQuote '/' = false := rfl

/-- No literal and no comment begins with the character. -/
def IsSingle (c : Char) : Prop := isQuote c = false ∧ c ≠ '/'

instance : DecidablePred IsSingle := fun _ => inferInstanceAs (Decidable (_ ∧ _))

theorem isSingle_of_isOrdinary {c : Char} (ordinary : isOrdinary c) : IsSingle c := by
  simp only [isOrdinary, Bool.and_eq_true, Bool.not_eq_true', decide_eq_true_eq] at ordinary
  exact ⟨ordinary.1.1.1, ordinary.2⟩

theorem isSingle_of_isOpener {c : Char} (opener : isOpener c) : IsSingle c := by
  have : (c = '{' ∨ c = '[') ∨ c = '(' := by simpa [isOpener] using opener
  obtain (rfl | rfl) | rfl := this <;> exact ⟨rfl, by decide⟩

theorem isSingle_of_isCloser {c : Char} (closer : isCloser c) : IsSingle c := by
  have : (c = '}' ∨ c = ']') ∨ c = ')' := by simpa [isCloser] using closer
  obtain (rfl | rfl) | rfl := this <;> exact ⟨rfl, by decide⟩

section

variable {avoid inside text rest : List Char} {c quote : Char}

/-- The lexemes put together give the text back. -/
@[simp] theorem textOf_lexemes (text : List Char) : textOf (lexemes text) = text := by
  fun_induction lexemes text with
  | case1 => rfl
  | case2 c rest isQuote size ih => simp_all [textOf, Lexeme.text, size]
  | case3 c rest notQuote size isComment ih => simp_all [textOf, Lexeme.text]
  | case4 c rest notQuote notComment ih => simp_all [textOf, Lexeme.text]

/-- With its quote open the scanner passes over a literal. -/
theorem IsInside.passes {below after : List Frame} (literal : IsInside quote inside)
    (later : Passes below text after rest) :
    Passes (.literal quote :: below) (inside ++ quote :: text) after rest := by
  rcases literal with ⟨line, quoted⟩ | ⟨rfl, template⟩
  · exact .quoted line quoted later
  · exact .append (template.passes rfl) (.cons (by simp [move]) later)

theorem literalLength_of_isInside (literal : IsInside quote inside) :
    literalLength quote (inside ++ quote :: rest) = inside.length + 1 := by
  have passes : Passes [.literal quote] (inside ++ [quote]) [] rest := literal.passes (.nil _ _)
  rw [Passes, List.append_assoc, List.singleton_append] at passes
  simp [literalLength, passes, closing, pass]

theorem commentLength?_of_keepsSlash (alone : KeepsSlash rest.head?) :
    commentLength? rest = none := by
  unfold commentLength?
  split
  · exact absurd rfl alone.1
  · exact absurd rfl alone.2
  · rfl

theorem commentLength?_line (onLine : '\n' ∉ inside) :
    commentLength? ('/' :: inside ++ '\n' :: rest) = some (1 + inside.length) := by
  have ends : closing [.lineComment] false (inside ++ '\n' :: rest) = some inside.length := by
    induction inside with
    | nil => simp [closing_cons, move]
    | cons c inside ih =>
        simp only [List.mem_cons, not_or] at onLine
        simp [closing_cons, move, Ne.symm onLine.1, ih onLine.2, pass]
  simp [commentLength?, ends]

theorem commentLength?_block (unended : ¬ ['*', '/'] <:+: inside) :
    commentLength? ('*' :: inside ++ '*' :: '/' :: rest) = some (inside.length + 3) := by
  have passes : Passes [.blockComment] (inside ++ ['*', '/']) [] rest :=
    .blockComment unended (.nil _ _)
  rw [Passes, List.append_assoc, List.cons_append, List.singleton_append] at passes
  simp [commentLength?, passes, closing, pass]
  omega

theorem lexemes_code (notQuote : isQuote c = false) (alone : c = '/' → KeepsSlash rest.head?) :
    lexemes (c :: rest) = .code c :: lexemes rest := by
  have noComment : (if c = '/' then commentLength? rest else none) = none := by
    split
    · exact commentLength?_of_keepsSlash (alone ‹_›)
    · rfl
  rw [lexemes, if_neg (by simp [notQuote]), noComment]

theorem lexemes_single (single : IsSingle c) : lexemes (c :: rest) = .code c :: lexemes rest :=
  lexemes_code single.1 fun isSlash => absurd isSlash single.2

theorem lexemes_literal (literal : IsInside quote inside) :
    lexemes (quote :: inside ++ quote :: rest) =
      .literal (quote :: inside ++ [quote]) :: lexemes rest := by
  rw [List.cons_append, lexemes, if_pos literal.isQuote, literalLength_of_isInside literal]
  have divided : inside ++ quote :: rest = (inside ++ [quote]) ++ rest := by simp
  have size : inside.length + 1 = (inside ++ [quote]).length := by simp
  simp only []
  rw [divided, size, List.take_left, List.drop_left]
  rfl

theorem lexemes_lineComment (onLine : '\n' ∉ inside) :
    lexemes ('/' :: '/' :: inside ++ '\n' :: rest) =
      .comment ('/' :: '/' :: inside) :: lexemes ('\n' :: rest) := by
  have length : commentLength? ('/' :: (inside ++ '\n' :: rest)) = some (1 + inside.length) :=
    commentLength?_line onLine
  rw [List.cons_append, List.cons_append, lexemes, if_neg (by simp [isQuote_slash]), if_pos rfl,
    length, Nat.add_comm]
  simp

theorem lexemes_blockComment (unended : ¬ ['*', '/'] <:+: inside) :
    lexemes ('/' :: '*' :: inside ++ '*' :: '/' :: rest) =
      .comment ('/' :: '*' :: inside ++ ['*', '/']) :: lexemes rest := by
  have length : commentLength? ('*' :: (inside ++ '*' :: '/' :: rest)) = some (inside.length + 3) :=
    commentLength?_block unended
  have divided : '*' :: (inside ++ '*' :: '/' :: rest) = ('*' :: inside ++ ['*', '/']) ++ rest := by
    simp
  have size : inside.length + 3 = ('*' :: inside ++ ['*', '/']).length := by simp
  rw [List.cons_append, List.cons_append, lexemes, if_neg (by simp [isQuote_slash]), if_pos rfl,
    length]
  simp only []
  rw [divided, size, List.take_left, List.drop_left]
  rfl

/-- Every literal and every comment of the text is closed in it; brackets do not
matter. -/
inductive IsLexed : List Char → Prop where
  | nil : IsLexed []
  | code {rest : List Char} (c : Char) (notQuote : isQuote c = false)
      (alone : c = '/' → KeepsSlash rest.head?) (later : IsLexed rest) : IsLexed (c :: rest)
  | literal {inside rest : List Char} (quote : Char) (inner : IsInside quote inside)
      (later : IsLexed rest) : IsLexed (quote :: inside ++ quote :: rest)
  | lineComment {rest : List Char} (inside : List Char) (onLine : '\n' ∉ inside)
      (later : IsLexed ('\n' :: rest)) : IsLexed ('/' :: '/' :: inside ++ '\n' :: rest)
  | blockComment {rest : List Char} (inside : List Char)
      (unended : ¬ ['*', '/'] <:+: inside) (later : IsLexed rest) :
      IsLexed ('/' :: '*' :: inside ++ '*' :: '/' :: rest)

/-- The text ends in a slash of its code, which would start a comment together with
another slash or a star. -/
def EndsInSlash (text : List Char) : Prop := (lexemes text).getLast? = some (.code '/')

instance (text : List Char) : Decidable (EndsInSlash text) :=
  inferInstanceAs (Decidable (_ = _))

@[simp] theorem lexemes_nil : lexemes [] = [] := by rw [lexemes]

@[simp] theorem withoutComments_nil : withoutComments [] = [] := by simp [withoutComments]

theorem not_endsInSlash_nil : ¬ EndsInSlash [] := by simp [EndsInSlash]

theorem EndsInSlash.of_later {part : Lexeme} {text later : List Char}
    (divided : lexemes text = part :: lexemes later) (ends : EndsInSlash later) :
    EndsInSlash text := by
  rw [EndsInSlash, divided, List.getLast?_cons, show (lexemes later).getLast? = _ from ends]
  rfl

theorem EndsInSlash.later {part : Lexeme} {text later : List Char}
    (divided : lexemes text = part :: lexemes later) (other : part ≠ .code '/')
    (ends : EndsInSlash text) : EndsInSlash later := by
  rw [EndsInSlash, divided, List.getLast?_cons] at ends
  cases last : (lexemes later).getLast? with
  | none =>
      rw [last] at ends
      exact absurd (Option.some.inj ends) other
  | some found => rwa [last, Option.getD_some, ← last] at ends

theorem EndsInSlash.getLast? {text : List Char} (ends : EndsInSlash text) :
    text.getLast? = some '/' := by
  obtain ⟨before, divided⟩ := List.getLast?_eq_some_iff.mp ends
  rw [← textOf_lexemes text, divided]
  simp [textOf, Lexeme.text]

/-- Behind a text whose literals and comments are closed the division starts anew. -/
theorem IsLexed.lexemes_append (lexed : IsLexed text)
    (follows : EndsInSlash text → KeepsSlash rest.head?) :
    lexemes (text ++ rest) = lexemes text ++ lexemes rest := by
  induction lexed with
  | nil => simp
  | @code more c notQuote alone later ih =>
      have divided := lexemes_code notQuote alone
      have stillAlone : c = '/' → KeepsSlash (more ++ rest).head? := by
        rintro rfl
        cases more with
        | nil => exact follows (by simp [EndsInSlash, divided])
        | cons d others => exact alone rfl
      rw [List.cons_append, lexemes_code notQuote stillAlone, divided,
        ih fun ends => follows (.of_later divided ends), List.cons_append]
  | @literal inside more quote inner later ih =>
      have divided := @lexemes_literal inside more quote inner
      have longer := @lexemes_literal inside (more ++ rest) quote inner
      simp only [List.append_assoc, List.cons_append] at divided longer ⊢
      rw [longer, divided, ih fun ends => follows (.of_later divided ends), List.cons_append]
  | @lineComment more inside onLine later ih =>
      have divided := @lexemes_lineComment inside more onLine
      have longer := @lexemes_lineComment inside (more ++ rest) onLine
      simp only [List.append_assoc, List.cons_append] at divided longer ih ⊢
      rw [longer, divided, ih fun ends => follows (.of_later divided ends), List.cons_append]
  | @blockComment more inside unended later ih =>
      have divided := @lexemes_blockComment inside more unended
      have longer := @lexemes_blockComment inside (more ++ rest) unended
      simp only [List.append_assoc, List.cons_append] at divided longer ⊢
      rw [longer, divided, ih fun ends => follows (.of_later divided ends), List.cons_append]

theorem IsLexed.withoutComments_append (lexed : IsLexed text)
    (follows : EndsInSlash text → KeepsSlash rest.head?) :
    withoutComments (text ++ rest) = withoutComments text ++ withoutComments rest := by
  rw [withoutComments, lexed.lexemes_append follows, List.flatMap_append]
  rfl

theorem withoutComments_code (notQuote : isQuote c = false)
    (alone : c = '/' → KeepsSlash rest.head?) :
    withoutComments (c :: rest) = c :: withoutComments rest := by
  rw [withoutComments, lexemes_code notQuote alone]
  rfl

theorem withoutComments_single (single : IsSingle c) :
    withoutComments (c :: rest) = c :: withoutComments rest :=
  withoutComments_code single.1 fun isSlash => absurd isSlash single.2

theorem withoutComments_literal (literal : IsInside quote inside) :
    withoutComments (quote :: inside ++ quote :: rest) =
      quote :: inside ++ quote :: withoutComments rest := by
  rw [withoutComments, lexemes_literal literal]
  simp [Lexeme.uncommented, withoutComments]

theorem withoutComments_lineComment (onLine : '\n' ∉ inside) :
    withoutComments ('/' :: '/' :: inside ++ '\n' :: rest) = withoutComments ('\n' :: rest) := by
  have noBreak : inside.filter (· = '\n') = [] := by
    simpa using fun c member (isBreak : c = '\n') => onLine (isBreak ▸ member)
  rw [withoutComments, lexemes_lineComment onLine]
  simp [Lexeme.uncommented, withoutComments, noBreak]

/-- A block comment leaves its line breaks behind. -/
theorem withoutComments_blockComment (unended : ¬ ['*', '/'] <:+: inside) :
    withoutComments ('/' :: '*' :: inside ++ '*' :: '/' :: rest) =
      inside.filter (· = '\n') ++ withoutComments rest := by
  rw [withoutComments, lexemes_blockComment unended]
  simp [Lexeme.uncommented, withoutComments]

/-- Removing comments moves no slash or star behind a slash. -/
theorem KeepsSlash.withoutComments (alone : KeepsSlash text.head?) :
    KeepsSlash (withoutComments text).head? := by
  cases text with
  | nil => simpa using alone
  | cons c rest =>
      have notSlash : c ≠ '/' := by rintro rfl; exact alone.1 rfl
      rw [Source.withoutComments, lexemes, if_neg notSlash]
      split
      · exact alone
      · exact alone

end

/-!
Texts whose brackets are closed too.
-/

section

variable {avoid text rest : List Char}

/-- Characters that neither a literal nor a comment begins with. -/
theorem lexemes_of_ordinary (plain : ∀ c ∈ text, isOrdinary c) :
    lexemes text = text.map .code := by
  induction text with
  | nil => simp
  | cons c text ih =>
      rw [List.forall_mem_cons] at plain
      rw [lexemes_single (isSingle_of_isOrdinary plain.1), ih plain.2, List.map_cons]

theorem withoutComments_of_ordinary (plain : ∀ c ∈ text, isOrdinary c) :
    withoutComments text = text := by
  rw [withoutComments, lexemes_of_ordinary plain, List.flatMap_map]
  exact List.flatMap_singleton' text

theorem not_endsInSlash_of_ordinary (plain : ∀ c ∈ text, isOrdinary c) : ¬ EndsInSlash text :=
  fun ends => (isSingle_of_isOrdinary (plain _ (List.mem_of_getLast? ends.getLast?))).2 rfl

theorem IsBody.of_ordinary (plain : ∀ c ∈ text, isOrdinary c ∧ c ∉ avoid) :
    IsBody avoid text := by
  induction text with
  | nil => exact .nil _
  | cons c text ih =>
      rw [List.forall_mem_cons] at plain
      exact .ordinary c plain.1.1 plain.1.2 (ih plain.2)

theorem IsLexed.single {c : Char} (single : IsSingle c) (later : IsLexed rest) :
    IsLexed (c :: rest) :=
  .code c single.1 (fun isSlash => absurd isSlash single.2) later

theorem IsLexed.append (lexed : IsLexed text) (later : IsLexed rest)
    (follows : EndsInSlash text → KeepsSlash rest.head?) : IsLexed (text ++ rest) := by
  induction lexed with
  | nil => exact later
  | @code more c notQuote alone _ ih =>
      have divided := lexemes_code notQuote alone
      refine .code c notQuote ?_ (ih fun ends => follows (.of_later divided ends))
      rintro rfl
      cases more with
      | nil => exact follows (by simp [EndsInSlash, divided])
      | cons d others => exact alone rfl
  | literal quote inner _ ih =>
      rw [List.append_assoc, List.cons_append]
      exact .literal quote inner (ih fun ends => follows (.of_later (lexemes_literal inner) ends))
  | lineComment inside onLine _ ih =>
      rw [List.append_assoc, List.cons_append]
      exact .lineComment inside onLine
        (ih fun ends => follows (.of_later (lexemes_lineComment onLine) ends))
  | blockComment inside unended _ ih =>
      rw [List.append_assoc, List.cons_append, List.cons_append]
      exact .blockComment inside unended
        (ih fun ends => follows (.of_later (lexemes_blockComment unended) ends))

/-- Where brackets are closed, so are literals and comments. -/
theorem IsBody.isLexed : {avoid text : List Char} → IsBody avoid text → IsLexed text
  | _, _, .nil _ => .nil
  | _, _, .ordinary _ plain _ later => .single (isSingle_of_isOrdinary plain) later.isLexed
  | _, _, .slash alone later => .code '/' rfl (fun _ => alone) later.isLexed
  | _, _, .lineComment inside onLine later => .lineComment inside onLine later.isLexed
  | _, _, .blockComment inside unended later => .blockComment inside unended later.isLexed
  | _, _, .quoted quote line inner later => .literal quote (.inl ⟨line, inner⟩) later.isLexed
  | _, _, .template inner later => .literal '`' (.inr ⟨rfl, inner⟩) later.isLexed
  | _, _, .group _ _ isPair inner later =>
      have ⟨isOpener, isCloser⟩ := isBracket_of_isPair isPair
      .single (isSingle_of_isOpener isOpener)
        (.append inner.isLexed (.single (isSingle_of_isCloser isCloser) later.isLexed)
          fun _ => keepsSlash_of_isCloser isCloser)

theorem EndsInSlash.append (lexed : IsLexed text)
    (follows : EndsInSlash text → KeepsSlash rest.head?) (ends : EndsInSlash rest) :
    EndsInSlash (text ++ rest) := by
  rw [EndsInSlash, lexed.lexemes_append follows, List.getLast?_append,
    show (lexemes rest).getLast? = _ from ends]
  rfl

theorem EndsInSlash.of_group {opener closer : Char} {inside : List Char}
    (isPair : IsPair opener closer) (inner : IsBody [] inside) (ends : EndsInSlash rest) :
    EndsInSlash (opener :: inside ++ closer :: rest) := by
  obtain ⟨isOpener, isCloser⟩ := isBracket_of_isPair isPair
  have closes : EndsInSlash (closer :: rest) :=
    .of_later (lexemes_single (isSingle_of_isCloser isCloser)) ends
  have whole : EndsInSlash (inside ++ closer :: rest) :=
    .append inner.isLexed (fun _ => keepsSlash_of_isCloser isCloser) closes
  exact .of_later (lexemes_single (isSingle_of_isOpener isOpener)) whole

theorem IsBody.append : {text : List Char} → IsBody avoid text → IsBody avoid rest →
    (EndsInSlash text → KeepsSlash rest.head?) → IsBody avoid (text ++ rest)
  | _, .nil _, more, _ => more
  | _, .ordinary c plain kept later, more, follows =>
      .ordinary c plain kept (later.append more fun ends =>
        follows (.of_later (lexemes_single (isSingle_of_isOrdinary plain)) ends))
  | _, @IsBody.slash _ text alone later, more, follows => by
      have divided := lexemes_code (show isQuote '/' = false from rfl) fun _ => alone
      refine .slash ?_ (later.append more fun ends => follows (.of_later divided ends))
      cases text with
      | nil => exact follows (by simp [EndsInSlash, divided])
      | cons c others => exact alone
  | _, .lineComment inside onLine later, more, follows => by
      rw [List.append_assoc, List.cons_append]
      exact .lineComment inside onLine
        (later.append more fun ends => follows (.of_later (lexemes_lineComment onLine) ends))
  | _, .blockComment inside unended later, more, follows => by
      rw [List.append_assoc, List.cons_append, List.cons_append]
      exact .blockComment inside unended
        (later.append more fun ends => follows (.of_later (lexemes_blockComment unended) ends))
  | _, .quoted quote line inner later, more, follows => by
      rw [List.append_assoc, List.cons_append]
      exact .quoted quote line inner (later.append more fun ends =>
        follows (.of_later (lexemes_literal (.inl ⟨line, inner⟩)) ends))
  | _, .template inner later, more, follows => by
      rw [List.append_assoc, List.cons_append]
      exact .template inner (later.append more fun ends =>
        follows (.of_later (lexemes_literal (.inr ⟨rfl, inner⟩)) ends))
  | _, .group opener closer isPair inner later, more, follows => by
      rw [List.append_assoc, List.cons_append]
      exact .group opener closer isPair inner
        (later.append more fun ends => follows (.of_group isPair inner ends))

theorem withoutComments_group {opener closer : Char} {inside : List Char}
    (isPair : IsPair opener closer) (inner : IsBody [] inside) :
    withoutComments (opener :: inside ++ closer :: rest) =
      opener :: withoutComments inside ++ closer :: withoutComments rest := by
  obtain ⟨isOpener, isCloser⟩ := isBracket_of_isPair isPair
  have follows : KeepsSlash (closer :: rest).head? := keepsSlash_of_isCloser isCloser
  rw [List.cons_append, withoutComments_single (isSingle_of_isOpener isOpener),
    inner.isLexed.withoutComments_append fun _ => follows,
    withoutComments_single (isSingle_of_isCloser isCloser), List.cons_append]

/-!
What closed code begins with decides how it goes on.
-/

theorem IsBody.tail {c : Char} (plain : isOrdinary c) (body : IsBody avoid (c :: rest)) :
    IsBody avoid rest := by
  generalize divided : c :: rest = text at body
  cases body with
  | nil => cases divided
  | ordinary _ _ _ later => cases divided; exact later
  | slash => cases divided; cases plain
  | lineComment => cases divided; cases plain
  | blockComment => cases divided; cases plain
  | template => cases divided; cases plain
  | quoted quote line =>
      cases divided
      have isQuote := (isSingle_of_isOrdinary plain).1
      rw [isQuote_of_isLineQuote line] at isQuote
      cases isQuote
  | group opener closer isPair =>
      cases divided
      simp [isOrdinary, (isBracket_of_isPair isPair).1] at plain

theorem IsBody.literal {quote : Char} (isQuote : isQuote quote)
    (body : IsBody avoid (quote :: rest)) :
    ∃ inside more, rest = inside ++ quote :: more ∧ IsInside quote inside := by
  generalize divided : quote :: rest = text at body
  cases body with
  | nil => cases divided
  | ordinary _ plain =>
      cases divided
      rw [(isSingle_of_isOrdinary plain).1] at isQuote
      cases isQuote
  | slash => cases divided; cases isQuote
  | lineComment => cases divided; cases isQuote
  | blockComment => cases divided; cases isQuote
  | quoted _ line inner => cases divided; exact ⟨_, _, rfl, .inl ⟨line, inner⟩⟩
  | template inner => cases divided; exact ⟨_, _, rfl, .inr ⟨rfl, inner⟩⟩
  | group _ _ isPair =>
      cases divided
      rw [(isSingle_of_isOpener (isBracket_of_isPair isPair).1).1] at isQuote
      cases isQuote

theorem IsBody.lineBreaks_append {breaks : List Char} (allowed : '\n' ∉ avoid)
    (isBreaks : ∀ c ∈ breaks, c = '\n') (body : IsBody avoid rest) :
    IsBody avoid (breaks ++ rest) := by
  induction breaks with
  | nil => exact body
  | cons c breaks ih =>
      rw [List.forall_mem_cons] at isBreaks
      obtain ⟨rfl, isBreaks⟩ := isBreaks
      exact .ordinary '\n' rfl allowed (ih isBreaks)

/-- Brackets and literals stay closed when the comments are removed. -/
theorem IsBody.withoutComments :
    {avoid text : List Char} → '\n' ∉ avoid → IsBody avoid text →
      IsBody avoid (withoutComments text)
  | _, _, _, .nil _ => by rw [withoutComments_nil]; exact .nil _
  | _, _, allowed, .ordinary c plain kept later => by
      rw [withoutComments_single (isSingle_of_isOrdinary plain)]
      exact .ordinary c plain kept (later.withoutComments allowed)
  | _, _, allowed, .slash alone later => by
      rw [withoutComments_code rfl fun _ => alone]
      exact .slash alone.withoutComments (later.withoutComments allowed)
  | _, _, allowed, .lineComment inside onLine later => by
      rw [withoutComments_lineComment onLine]
      exact later.withoutComments allowed
  | _, _, allowed, .blockComment inside unended later => by
      rw [withoutComments_blockComment unended]
      exact .lineBreaks_append allowed (by simp) (later.withoutComments allowed)
  | _, _, allowed, .quoted quote line inner later => by
      rw [withoutComments_literal (.inl ⟨line, inner⟩)]
      exact .quoted quote line inner (later.withoutComments allowed)
  | _, _, allowed, .template inner later => by
      rw [withoutComments_literal (.inr ⟨rfl, inner⟩)]
      exact .template inner (later.withoutComments allowed)
  | _, _, allowed, .group opener closer isPair inner later => by
      rw [withoutComments_group isPair inner]
      exact .group opener closer isPair (inner.withoutComments (by simp))
        (later.withoutComments allowed)

end

/-- Blanks and comments. -/
inductive IsGap : List Char → Prop where
  | nil : IsGap []
  | blank {rest : List Char} (c : Char) (isBlank : isBlank c) (later : IsGap rest) :
      IsGap (c :: rest)
  | lineComment {rest : List Char} (inside : List Char) (onLine : '\n' ∉ inside)
      (later : IsGap ('\n' :: rest)) : IsGap ('/' :: '/' :: inside ++ '\n' :: rest)
  | blockComment {rest : List Char} (inside : List Char) (unended : ¬ ['*', '/'] <:+: inside)
      (later : IsGap rest) : IsGap ('/' :: '*' :: inside ++ '*' :: '/' :: rest)

section

variable {avoid gap : List Char}

theorem IsGap.isBody (allowed : ∀ c ∈ avoid, isBlank c = false) (isGap : IsGap gap) :
    IsBody avoid gap := by
  induction isGap with
  | nil => exact .nil _
  | blank c blank _ ih =>
      refine .ordinary c (isOrdinary_of_isBlank blank) (fun member => ?_) ih
      rw [allowed c member] at blank
      cases blank
  | lineComment inside onLine _ ih => exact .lineComment inside onLine ih
  | blockComment inside unended _ ih => exact .blockComment inside unended ih

theorem IsGap.append_left {before : List Char} (blank : isAllBlank before) (isGap : IsGap gap) :
    IsGap (before ++ gap) := by
  induction before with
  | nil => exact isGap
  | cons c before ih =>
      simp only [isAllBlank, List.all_cons, Bool.and_eq_true] at blank
      exact .blank c blank.1 (ih blank.2)

theorem IsGap.not_endsInSlash (isGap : IsGap gap) : ¬ EndsInSlash gap := by
  induction isGap with
  | nil => exact not_endsInSlash_nil
  | blank c blank _ ih =>
      have single := isSingle_of_isOrdinary (isOrdinary_of_isBlank blank)
      exact fun ends => ih (.later (lexemes_single single) (by simp [single.2]) ends)
  | lineComment inside onLine _ ih =>
      exact fun ends => ih (.later (lexemes_lineComment onLine) (by simp) ends)
  | blockComment inside unended _ ih =>
      exact fun ends => ih (.later (lexemes_blockComment unended) (by simp) ends)

theorem isAllBlank_lineBreaks (text : List Char) : isAllBlank (text.filter (· = '\n')) := by
  refine List.all_eq_true.mpr fun c member => ?_
  obtain rfl : c = '\n' := by simpa using (List.mem_filter.mp member).2
  rfl

/-- A gap leaves blanks behind when the comments are removed. -/
theorem IsGap.isAllBlank_withoutComments (isGap : IsGap gap) :
    isAllBlank (withoutComments gap) := by
  induction isGap with
  | nil => rw [withoutComments_nil]; rfl
  | blank c blank _ ih =>
      rw [withoutComments_single (isSingle_of_isOrdinary (isOrdinary_of_isBlank blank))]
      simpa [isAllBlank, blank] using ih
  | lineComment inside onLine _ ih => rwa [withoutComments_lineComment onLine]
  | blockComment inside unended _ ih =>
      rw [withoutComments_blockComment unended, isAllBlank_append, isAllBlank_lineBreaks, ih]
      rfl

end

end ComponentAtlas.Source
