/-
Module: ComponentAtlas.Proofs.Props.Signature
Purpose: Members of a props type as a script writes them, and why their lines are closed.
Main exports:
  Closes, MarkFree, Name, Signature, Signature.IsWritten, Signature.IsWritten.closes_line
-/
import ComponentAtlas.Proofs.Source.Segment
import ComponentAtlas.Proofs.Text.Alphanumeric
import ComponentAtlas.Proofs.Text.Words
import ComponentAtlas.Props.Members

namespace ComponentAtlas.Props

open ComponentAtlas.Text
open ComponentAtlas.Source

/-- With some brackets and type argument lists open behind the previous character, the
text closes them all, and it has separators only while something is open.  A list opens
behind a name or a dot, and the next angle that belongs to no arrow closes it, even inside
brackets that are open still. -/
inductive Closes : (brackets lists : Nat) → (previous : Option Char) → List Char → Prop where
  | nil (previous : Option Char) : Closes 0 0 previous []
  | literal {brackets lists : Nat} {previous : Option Char} {inside rest : List Char}
      (quote : Char) (inner : IsInside quote inside)
      (later : Closes brackets lists (some quote) rest) :
      Closes brackets lists previous (quote :: inside ++ quote :: rest)
  | opener {brackets lists : Nat} {previous : Option Char} {rest : List Char} (c : Char)
      (isOpener : isOpener c) (later : Closes (brackets + 1) lists (some c) rest) :
      Closes brackets lists previous (c :: rest)
  | closer {brackets lists : Nat} {previous : Option Char} {rest : List Char} (c : Char)
      (isCloser : isCloser c) (later : Closes brackets lists (some c) rest) :
      Closes (brackets + 1) lists previous (c :: rest)
  | listOpener {brackets lists : Nat} {previous : Option Char} {rest : List Char}
      (led : opensTypeArguments previous)
      (later : Closes brackets (lists + 1) (some '<') rest) :
      Closes brackets lists previous ('<' :: rest)
  | listCloser {brackets lists : Nat} {previous : Option Char} {rest : List Char}
      (noArrow : previous ≠ some '=') (later : Closes brackets lists (some '>') rest) :
      Closes brackets (lists + 1) previous ('>' :: rest)
  | plain {brackets lists : Nat} {previous : Option Char} {rest : List Char} (c : Char)
      (isPlain : isQuote c = false ∧ isOpener c = false ∧ isCloser c = false)
      (opensNothing : c = '<' → opensTypeArguments previous = false)
      (closesNothing : c = '>' → lists = 0 ∨ previous = some '=')
      (inside : c ∈ memberSeparation.separators → 0 < brackets ∨ 0 < lists)
      (later : Closes brackets lists (some c) rest) : Closes brackets lists previous (c :: rest)

/-- Nothing in the text looks like the start of a comment, not even in a literal. -/
def MarkFree (text : List Char) : Prop := ¬ ['/', '/'] <:+: text ∧ ¬ ['/', '*'] <:+: text

instance (text : List Char) : Decidable (MarkFree text) :=
  inferInstanceAs (Decidable (_ ∧ _))

/-- The name of a member, with or without quotes. -/
inductive Name where
  | word (text : List Char)
  | quoted (quote : Char) (text : List Char)
deriving Repr, DecidableEq

namespace Name

def written : Name → List Char
  | .word text => text
  | .quoted quote text => quote :: text ++ [quote]

/-- The name as a prop shows it. -/
def shown : Name → List Char
  | .word text => text
  | .quoted quote text => trimWhile isLineQuote (quote :: text ++ [quote])

/-- An identifier that starts with an ASCII letter, an underscore or a dollar sign, or a
name between quotes that has something inside, and neither its own quote nor backslashes,
line breaks or marks of comments. -/
def IsName : Name → Prop
  | .word text => text.head?.any startsName ∧ ∀ c ∈ text, isWord c ∨ c = '$'
  | .quoted quote text =>
      isLineQuote quote ∧ text ≠ [] ∧ MarkFree text ∧
        ∀ c ∈ text, c ≠ quote ∧ c ≠ '\\' ∧ c ≠ '\n'

instance : (name : Name) → Decidable name.IsName
  | .word text =>
      have := List.decidableBAll (fun c => isWord c ∨ c = '$') text
      inferInstanceAs (Decidable (_ ∧ _))
  | .quoted quote text =>
      have := List.decidableBAll (fun c => c ≠ quote ∧ c ≠ '\\' ∧ c ≠ '\n') text
      inferInstanceAs (Decidable (_ ∧ _ ∧ _ ∧ _))

end Name

/-- What ends a member: a semicolon or a comma with a line break behind it, or the line
break alone. -/
inductive Ending where
  | semicolon
  | comma
  | lineBreak
deriving Repr, DecidableEq

def Ending.text : Ending → List Char
  | .semicolon => [';', '\n']
  | .comma => [',', '\n']
  | .lineBreak => ['\n']

/-- A comment in front of a member: the blanks before it, and what stands behind the two
stars. -/
structure Doc where
  before : List Char
  inside : List Char
deriving Repr, DecidableEq

/-- A member of a props type. -/
structure Signature where
  doc : Option Doc
  before : List Char
  isReadonly : Bool
  name : Name
  optional : Bool
  /-- The first line of the type, from the colon on. -/
  first : List Char
  /-- The further lines of the type. -/
  more : List (List Char)
  ending : Ending
deriving Repr, DecidableEq

def Doc.comment (doc : Doc) : List Char := '/' :: '*' :: ('*' :: doc.inside) ++ ['*', '/']

def Doc.text (doc : Doc) : List Char := doc.before ++ doc.comment

namespace Signature

/-- What stands in front of the type. -/
def lead (signature : Signature) : List Char :=
  (if signature.isReadonly then "readonly ".toList else []) ++
    (signature.name.written ++ ((if signature.optional then ['?'] else []) ++ [':']))

/-- The first line of the member without the blanks before it. -/
def line (signature : Signature) : List Char := signature.lead ++ signature.first

def type (signature : Signature) : List Char :=
  signature.first ++ signature.more.flatMap ('\n' :: ·)

def text (signature : Signature) : List Char :=
  (signature.doc.elim [] fun doc => doc.text ++ ['\n']) ++
    (signature.before ++ (signature.line ++ (signature.more.flatMap ('\n' :: ·) ++
      signature.ending.text)))

end Signature

/-- Blanks that stay on their line. -/
def IsIndent (text : List Char) : Prop := ∀ c ∈ text, isBlank c ∧ c ≠ '\n'

instance (text : List Char) : Decidable (IsIndent text) :=
  List.decidableBAll _ text

/-- The comment ends only at its end. -/
structure Doc.IsWritten (doc : Doc) : Prop where
  before : IsIndent doc.before
  unended : ¬ ['*', '/'] <:+: '*' :: doc.inside

/-- The lines of the type are closed, each further one starts with a bar or an ampersand,
and no line has a separator outside. -/
structure Signature.IsWritten (signature : Signature) : Prop where
  doc : ∀ doc ∈ signature.doc, doc.IsWritten
  before : IsIndent signature.before
  name : signature.name.IsName
  first : Closes 0 0 none signature.first
  more : ∀ line ∈ signature.more,
    Closes 0 0 none line ∧ (trimLeft line).head?.any fun c => c = '|' || c = '&'
  markFree : MarkFree signature.type
  notBlank : ¬ isAllBlank signature.type

/-- The prop that the member declares. -/
def Signature.prop (signature : Signature) : PropDecl :=
  { name := String.ofList signature.name.shown
    type := String.ofList (collapse signature.type)
    required := !signature.optional
    description := (signature.doc.bind fun doc => commentText doc.comment).map String.ofList }

/-!
Text without the marks of comments.
-/

section

variable {c : Char} {text rest before : List Char}

theorem MarkFree.of_infix (markFree : MarkFree rest) (part : text <:+: rest) : MarkFree text :=
  ⟨fun mark => markFree.1 (mark.trans part), fun mark => markFree.2 (mark.trans part)⟩

theorem MarkFree.of_cons (markFree : MarkFree (c :: text)) : MarkFree text :=
  markFree.of_infix (List.suffix_cons c text).isInfix

theorem MarkFree.keepsSlash (markFree : MarkFree ('/' :: text)) : KeepsSlash text.head? := by
  cases text with
  | nil => decide
  | cons d rest =>
      refine ⟨?_, ?_⟩
      · rintro ⟨⟩
        exact markFree.1 ⟨[], rest, rfl⟩
      · rintro ⟨⟩
        exact markFree.2 ⟨[], rest, rfl⟩

theorem MarkFree.of_not_mem (noSlash : '/' ∉ text) : MarkFree text :=
  ⟨fun mark => noSlash (mark.subset (by simp)), fun mark => noSlash (mark.subset (by simp))⟩

theorem MarkFree.cons (later : MarkFree text) (alone : c = '/' → KeepsSlash text.head?) :
    MarkFree (c :: text) := by
  have noMark : ∀ mark, (mark = '/' ∨ mark = '*') → ¬ ['/', mark] <+: c :: text := by
    rintro mark isMark ⟨rest, same⟩
    cases same
    have keeps := alone rfl
    rcases isMark with rfl | rfl
    · exact keeps.1 rfl
    · exact keeps.2 rfl
  refine ⟨?_, ?_⟩ <;> rw [List.infix_cons_iff, not_or]
  · exact ⟨noMark '/' (.inl rfl), later.1⟩
  · exact ⟨noMark '*' (.inr rfl), later.2⟩

/-- No mark runs across the place where two texts meet. -/
theorem MarkFree.append (first : MarkFree text) (second : MarkFree rest)
    (meets : text.getLast? = some '/' → KeepsSlash rest.head?) : MarkFree (text ++ rest) := by
  induction text with
  | nil => exact second
  | cons d text ih =>
      cases text with
      | nil => exact second.cons fun isSlash => meets (by simp [isSlash])
      | cons e more =>
          refine .cons (ih first.of_cons (by simpa using meets)) ?_
          rintro rfl
          exact first.keepsSlash

theorem MarkFree.append_left (noSlash : '/' ∉ before) (later : MarkFree text) :
    MarkFree (before ++ text) :=
  .append (.of_not_mem noSlash) later fun ends => absurd (List.mem_of_getLast? ends) noSlash

theorem commentLength?_of_markFree (markFree : MarkFree ('/' :: text)) :
    commentLength? text = none := commentLength?_of_keepsSlash markFree.keepsSlash

/-- Nothing is taken for a comment. -/
theorem MarkFree.withoutComments (markFree : MarkFree text) : withoutComments text = text := by
  have kept : (lexemes text).flatMap Lexeme.uncommented = textOf (lexemes text) := by
    fun_induction lexemes text with
    | case1 => rfl
    | case2 c rest isQuote size ih =>
        have later : MarkFree (rest.drop size) :=
          markFree.of_infix ((List.drop_suffix size rest).trans (List.suffix_cons c rest)).isInfix
        simp [textOf, Lexeme.uncommented, Lexeme.text, ih later]
    | case3 c rest notQuote size isComment ih =>
        split at isComment
        case isTrue isSlash =>
          subst isSlash
          rw [commentLength?_of_markFree markFree] at isComment
          cases isComment
        case isFalse => cases isComment
    | case4 c rest notQuote notComment ih =>
        simp [textOf, Lexeme.uncommented, Lexeme.text, ih markFree.of_cons]
  rw [Source.withoutComments, kept, textOf_lexemes]

end

/-!
The separators divide no closed text.
-/

section

variable {brackets lists : Nat} {previous : Option Char} {text rest : List Char} {c : Char}

theorem after_listOpener (led : opensTypeArguments previous) :
    Nesting.after memberSeparation ⟨brackets, lists, previous⟩ (.code '<') =
      .ok ⟨brackets, lists + 1, some '<'⟩ := by
  simp [Nesting.after, Nesting.afterCode?, memberSeparation, isOpener, isCloser, led]

theorem after_listCloser (noArrow : previous ≠ some '=') :
    Nesting.after memberSeparation ⟨brackets, lists + 1, previous⟩ (.code '>') =
      .ok ⟨brackets, lists, some '>'⟩ := by
  simp [Nesting.after, Nesting.afterCode?, memberSeparation, isOpener, isCloser, noArrow]

theorem after_plain (isPlain : isOpener c = false ∧ isCloser c = false)
    (opensNothing : c = '<' → opensTypeArguments previous = false)
    (closesNothing : c = '>' → lists = 0 ∨ previous = some '=')
    (inside : c ∈ memberSeparation.separators → 0 < brackets ∨ 0 < lists) :
    Nesting.after memberSeparation ⟨brackets, lists, previous⟩ (.code c) =
      .ok ⟨brackets, lists, some c⟩ := by
  have noOpening : ¬ (c = '<' ∧ opensTypeArguments previous = true) := by
    rintro ⟨isAngle, led⟩
    rw [opensNothing isAngle] at led
    cases led
  have noClosing : ¬ ((c = '>' ∧ 0 < lists) ∧ previous ≠ some '=') := by
    rintro ⟨⟨isAngle, isOpen⟩, noArrow⟩
    rcases closesNothing isAngle with closed | arrow
    · omega
    · exact noArrow arrow
  have noCut : ¬ ((brackets = 0 ∧ lists = 0) ∧ c ∈ memberSeparation.separators) := by
    rintro ⟨⟨noBracket, noList⟩, separator⟩
    rcases inside separator <;> omega
  have nests : memberSeparation.typeArguments = true := rfl
  simp [Nesting.after, Nesting.afterCode?, isPlain, nests, if_neg noOpening, if_neg noClosing,
    if_neg noCut]

theorem Closes.isLexed (markFree : MarkFree text) (closes : Closes brackets lists previous text) :
    IsLexed text := by
  induction closes with
  | nil => exact .nil
  | @literal _ _ _ inside rest quote inner _ ih =>
      have later : rest <:+ quote :: inside ++ quote :: rest :=
        (List.suffix_cons quote rest).trans (List.suffix_append _ _)
      exact .literal quote inner (ih (markFree.of_infix later.isInfix))
  | opener c isOpener _ ih =>
      exact .single (isSingle_of_isOpener isOpener) (ih markFree.of_cons)
  | closer c isCloser _ ih =>
      exact .single (isSingle_of_isCloser isCloser) (ih markFree.of_cons)
  | listOpener _ _ ih => exact .code '<' rfl (by simp) (ih markFree.of_cons)
  | listCloser _ _ ih => exact .code '>' rfl (by simp) (ih markFree.of_cons)
  | plain c isPlain _ _ _ _ ih =>
      refine .code c isPlain.1 ?_ (ih markFree.of_cons)
      rintro rfl
      exact markFree.keepsSlash

theorem Closes.through (markFree : MarkFree text) (closes : Closes brackets lists previous text) :
    ∃ last, Nesting.through memberSeparation ⟨brackets, lists, previous⟩ (lexemes text) =
      .ok ⟨0, 0, last⟩ := by
  induction closes with
  | nil previous => exact ⟨previous, by rw [lexemes_nil]; rfl⟩
  | @literal _ _ _ inside rest quote inner _ ih =>
      have later : rest <:+ quote :: inside ++ quote :: rest :=
        (List.suffix_cons quote rest).trans (List.suffix_append _ _)
      have isLast : (quote :: inside ++ [quote]).getLast? = some quote := List.getLast?_concat
      rw [lexemes_literal inner, Nesting.through_cons (by rw [Nesting.after, isLast])]
      exact ih (markFree.of_infix later.isInfix)
  | opener c isOpener _ ih =>
      rw [lexemes_single (isSingle_of_isOpener isOpener),
        Nesting.through_cons (Nesting.after_opener isOpener)]
      exact ih markFree.of_cons
  | closer c isCloser _ ih =>
      rw [lexemes_single (isSingle_of_isCloser isCloser),
        Nesting.through_cons (Nesting.after_closer isCloser)]
      exact ih markFree.of_cons
  | listOpener led _ ih =>
      rw [lexemes_code rfl (by simp), Nesting.through_cons (after_listOpener led)]
      exact ih markFree.of_cons
  | listCloser noArrow _ ih =>
      rw [lexemes_code rfl (by simp), Nesting.through_cons (after_listCloser noArrow)]
      exact ih markFree.of_cons
  | plain c isPlain opensNothing closesNothing inside _ ih =>
      have alone : c = '/' → KeepsSlash _ := fun isSlash => (isSlash ▸ markFree).keepsSlash
      rw [lexemes_code isPlain.1 alone,
        Nesting.through_cons (after_plain isPlain.2 opensNothing closesNothing inside)]
      exact ih markFree.of_cons

/-- The scanner leaves the brackets that the text closes, whatever lists are open. -/
theorem Closes.passes {below : List Frame} (markFree : MarkFree text)
    (closes : Closes brackets lists previous text) (follows : KeepsSlash rest.head?) :
    Passes (List.replicate (brackets + 1) .bracket ++ below) text (.bracket :: below) rest := by
  induction closes with
  | nil => exact .nil _ _
  | @literal _ _ _ inside rest quote inner _ ih =>
      have later : rest <:+ quote :: inside ++ quote :: rest :=
        (List.suffix_cons quote rest).trans (List.suffix_append _ _)
      exact .cons (move_quote inner.isQuote) (inner.passes (ih (markFree.of_infix later.isInfix)))
  | opener c isOpener _ ih => exact .cons (move_opener isOpener) (ih markFree.of_cons)
  | closer c isCloser _ ih => exact .cons (move_closer isCloser) (ih markFree.of_cons)
  | listOpener _ _ ih => exact .cons (move_ordinary rfl) (ih markFree.of_cons)
  | listCloser _ _ ih => exact .cons (move_ordinary rfl) (ih markFree.of_cons)
  | plain c isPlain _ _ _ _ ih =>
      by_cases isSlash : c = '/'
      · subst isSlash
        exact .cons (move_slash (markFree.keepsSlash.append follows)) (ih markFree.of_cons)
      · have ordinary : isOrdinary c := by simp [isOrdinary, isPlain, isSlash]
        exact .cons (move_ordinary ordinary) (ih markFree.of_cons)

theorem Closes.isWhole (markFree : MarkFree text) (closes : Closes 0 0 previous text) :
    IsWhole memberSeparation previous text :=
  ⟨closes.isLexed markFree, closes.through markFree⟩

/-- Only whether a list may open and whether an arrow is under way matters of what stands
before. -/
theorem Closes.restart (closes : Closes brackets lists previous text) (other : Option Char)
    (sameLead : opensTypeArguments previous = opensTypeArguments other)
    (sameArrow : previous = some '=' ↔ other = some '=') : Closes brackets lists other text := by
  cases closes with
  | nil => exact .nil _
  | literal quote inner later => exact .literal quote inner later
  | opener c isOpener later => exact .opener c isOpener later
  | closer c isCloser later => exact .closer c isCloser later
  | listOpener led later => exact .listOpener (sameLead ▸ led) later
  | listCloser noArrow later => exact .listCloser (fun arrow => noArrow (sameArrow.mpr arrow)) later
  | plain c isPlain opensNothing closesNothing inside later =>
      exact .plain c isPlain (fun isAngle => sameLead ▸ opensNothing isAngle)
        (fun isAngle => (closesNothing isAngle).imp_right sameArrow.mp) inside later

/-- The character neither opens, closes nor divides anything. -/
def isNeutral (c : Char) : Bool := isOrdinary c && c ∉ [',', ';', '\n', '<', '>']

theorem Closes.neutral_append {before : List Char} (neutral : ∀ c ∈ before, isNeutral c)
    (closes : Closes brackets lists (lastOf before previous) text) :
    Closes brackets lists previous (before ++ text) := by
  induction before generalizing previous with
  | nil => exact closes
  | cons c before ih =>
      rw [List.forall_mem_cons] at neutral
      obtain ⟨neutral, later⟩ := neutral
      simp only [isNeutral, Bool.and_eq_true, decide_eq_true_eq, List.mem_cons, not_or] at neutral
      obtain ⟨plain, notComma, notSemicolon, notBreak, notOpening, notClosing, -⟩ := neutral
      refine .plain c ⟨(isSingle_of_isOrdinary plain).1, bracket_of_isOrdinary plain⟩
        (fun isAngle => absurd isAngle notOpening) (fun isAngle => absurd isAngle notClosing)
        (fun separator => ?_) (ih later (by rwa [← lastOf_cons]))
      have : c = ',' ∨ c = ';' ∨ c = '\n' := by simpa [memberSeparation] using separator
      rcases this with isComma | isSemicolon | isBreak
      · exact absurd isComma notComma
      · exact absurd isSemicolon notSemicolon
      · exact absurd isBreak notBreak

theorem Closes.of_neutral (neutral : ∀ c ∈ text, isNeutral c) : Closes 0 0 previous text := by
  rw [← List.append_nil text]
  exact .neutral_append neutral (.nil _)

theorem isNeutral_of_isWord_or (word : isWord c ∨ c = '$') : isNeutral c := by
  rcases word with word | rfl
  · have none : ∀ mark ∈ [',', ';', '\n', '<', '>'], isWord mark = false :=
      forall_mem_of_all (by decide)
    have other : c ∉ [',', ';', '\n', '<', '>'] := fun member => by
      rw [none c member] at word
      cases word
    rw [isNeutral, isOrdinary_of_isWord word, decide_eq_true other]
    rfl
  · rfl

theorem IsIndent.isNeutral {before : List Char} (indent : IsIndent before) :
    ∀ c ∈ before, isNeutral c := by
  intro c member
  obtain ⟨blank, notBreak⟩ := indent c member
  have other : c ≠ ',' ∧ c ≠ ';' ∧ c ≠ '<' ∧ c ≠ '>' :=
    ⟨ne_of_isBlank blank rfl, ne_of_isBlank blank rfl, ne_of_isBlank blank rfl,
      ne_of_isBlank blank rfl⟩
  simp [Props.isNeutral, isOrdinary_of_isBlank blank, other, notBreak]

theorem IsIndent.isAllBlank {before : List Char} (indent : IsIndent before) :
    isAllBlank before := List.all_eq_true.mpr fun c member => (indent c member).1

end

/-!
The first line of a member is closed as a whole.
-/

namespace Name

variable {name : Name} {previous : Option Char} {rest : List Char}

theorem IsName.closes_append (isName : name.IsName)
    (closes : ∀ last, Closes 0 0 last rest) : Closes 0 0 previous (name.written ++ rest) := by
  cases name with
  | word text =>
      exact .neutral_append (fun c member => isNeutral_of_isWord_or (isName.2 c member)) (closes _)
  | quoted quote text =>
      obtain ⟨line, _, _, plain⟩ := isName
      rw [written, List.append_assoc, List.singleton_append]
      exact .literal quote (.inl ⟨line, .of_plain plain⟩) (closes _)

theorem IsName.markFree (isName : name.IsName) : MarkFree name.written := by
  cases name with
  | word text =>
      refine .of_not_mem fun member => ?_
      exact absurd (isNeutral_of_isWord_or (isName.2 _ member)) (by decide)
  | quoted quote text =>
      obtain ⟨line, _, markFree, _⟩ := isName
      have other : quote ≠ '/' ∧ quote ≠ '*' := by constructor <;> (rintro rfl; cases line)
      have keeps : KeepsSlash [quote].head? := by simp [KeepsSlash, other]
      refine .cons (markFree.append (.of_not_mem ?_) fun _ => keeps) fun isSlash => ?_
      · simp [Ne.symm other.1]
      · exact absurd isSlash other.1

end Name

namespace Signature

variable {signature : Signature}

theorem lead_append (signature : Signature) (type : List Char) :
    signature.lead ++ type = (if signature.isReadonly then "readonly ".toList else []) ++
      (signature.name.written ++
        (((if signature.optional then ['?'] else []) ++ [':']) ++ type)) := by
  simp only [lead, List.append_assoc]

theorem IsWritten.closes_line (written : signature.IsWritten) (previous : Option Char) :
    Closes 0 0 previous (signature.before ++ signature.line) := by
  have type : ∀ last, Closes 0 0 last
      (((if signature.optional then ['?'] else []) ++ [':']) ++ signature.first) := by
    intro last
    refine .neutral_append (List.all_eq_true.mp (by split <;> decide)) ?_
    rw [lastOf, List.getLast?_concat]
    exact written.first.restart _ rfl (by simp)
  rw [line, lead_append]
  refine .neutral_append written.before.isNeutral (.neutral_append ?_ ?_)
  · split
    · exact List.all_eq_true.mp (by decide)
    · exact fun c member => absurd member List.not_mem_nil
  · exact written.name.closes_append type

theorem IsWritten.markFree_first (written : signature.IsWritten) : MarkFree signature.first :=
  written.markFree.of_infix (List.prefix_append _ _).isInfix

theorem IsWritten.markFree_more (written : signature.IsWritten) :
    ∀ line ∈ signature.more, MarkFree line := by
  intro line member
  have broken := List.infix_of_mem_flatten
    (List.mem_map_of_mem member : ('\n' :: line) ∈ signature.more.map ('\n' :: ·))
  have part := (List.suffix_cons '\n' line).isInfix.trans broken
  exact written.markFree.of_infix (part.trans (List.suffix_append _ _).isInfix)

theorem IsWritten.markFree_line (written : signature.IsWritten) :
    MarkFree (signature.before ++ signature.line) := by
  have noSlash : '/' ∉ signature.before := fun member =>
    absurd (written.before.isNeutral _ member) (by decide)
  have type : MarkFree
      (((if signature.optional then ['?'] else []) ++ [':']) ++ signature.first) :=
    .append_left (by split <;> decide) written.markFree_first
  have keeps : KeepsSlash
      (((if signature.optional then ['?'] else []) ++ [':']) ++ signature.first).head? := by
    split <;> simp [KeepsSlash]
  rw [line, lead_append]
  exact .append_left noSlash (.append_left (by split <;> simp)
    (written.name.markFree.append type fun _ => keeps))

end Signature

end ComponentAtlas.Props
