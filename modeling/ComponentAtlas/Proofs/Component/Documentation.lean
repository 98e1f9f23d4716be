/-
Module: ComponentAtlas.Proofs.Component.Documentation
Purpose: When the doc comments that are searched for in the bare text are those of the script, and
  where descriptions and usage examples come from.
Main exports:
  docText, docsFrom, MarksDocs, docComment_eq_some_iff, hitsFrom_docComment, IsFromDocs,
  documentation_fromDocs
-/
import ComponentAtlas.Component.Documentation
import ComponentAtlas.Proofs.Source.CommentPlace
import ComponentAtlas.Proofs.Text.Hits
import ComponentAtlas.Proofs.Text.Lines

namespace ComponentAtlas

open ComponentAtlas.Source ComponentAtlas.Text

/-!
The search for doc comments knows only their marks: a slash and two stars open one wherever they
stand, and it reaches to the next star and slash.
-/

/-- A doc comment with its marks. -/
def docText (body : List Char) : List Char := '/' :: '*' :: '*' :: (body ++ ['*', '/'])

section

variable {before : Option Char} {text body after : List Char} {size : Nat}

theorem upToClose?_append (unended : ¬ ['*', '/'] <:+: body) (after : List Char) :
    upToClose? (body ++ '*' :: '/' :: after) = some (body, body.length + 2) := by
  induction body with
  | nil => rfl
  | cons c body ih =>
      rw [List.infix_cons_iff, not_or] at unended
      have goesOn : ∀ rest, c = '*' → body ++ '*' :: '/' :: after ≠ '/' :: rest := by
        rintro rest rfl isSlash
        cases body with
        | nil => cases isSlash
        | cons d body =>
            obtain ⟨rfl, -⟩ := List.cons.inj isSlash
            exact unended.1 ⟨body, rfl⟩
      rw [List.cons_append, upToClose?.eq_3 _ _ goesOn, ih unended.2]
      rfl

theorem upToClose?_eq_some (closed : upToClose? text = some (body, size)) :
    ¬ ['*', '/'] <:+: body ∧ size = body.length + 2 ∧
      ∃ after, text = body ++ '*' :: '/' :: after := by
  fun_induction upToClose? text generalizing body size with
  | case1 => cases closed
  | case2 after =>
      cases closed
      exact ⟨by simp, rfl, after, rfl⟩
  | case3 c rest goesOn ih =>
      obtain ⟨⟨inner, count⟩, later, isHit⟩ := Option.map_eq_some_iff.mp closed
      cases isHit
      obtain ⟨unended, rfl, after, rfl⟩ := ih later
      refine ⟨?_, rfl, after, rfl⟩
      rw [List.infix_cons_iff, not_or]
      refine ⟨?_, unended⟩
      rintro ⟨others, starts⟩
      obtain ⟨rfl, rfl⟩ := List.cons.inj starts
      exact goesOn _ rfl rfl

theorem exists_upToClose? (ended : ['*', '/'] <:+: text) :
    ∃ found, upToClose? text = some found := by
  fun_induction upToClose? text with
  | case1 => simp at ended
  | case2 after => exact ⟨_, rfl⟩
  | case3 c rest goesOn ih =>
      rcases List.infix_cons_iff.mp ended with ⟨others, starts⟩ | ended
      · obtain ⟨rfl, rfl⟩ := List.cons.inj starts
        exact absurd rfl (goesOn _ rfl)
      · obtain ⟨found, later⟩ := ih ended
        exact ⟨_, by rw [later]; rfl⟩

/-- What is found is a doc comment up to its first end. -/
theorem docComment_eq_some_iff :
    docComment before text = some (body, size) ↔
      ¬ ['*', '/'] <:+: body ∧ size = (docText body).length ∧
        ∃ after, text = docText body ++ after := by
  constructor
  · intro found
    unfold docComment at found
    split at found
    case h_1 rest =>
      obtain ⟨⟨inner, count⟩, closed, isHit⟩ := Option.map_eq_some_iff.mp found
      cases isHit
      obtain ⟨unended, rfl, after, rfl⟩ := upToClose?_eq_some closed
      exact ⟨unended, by simp [docText], after, by simp [docText]⟩
    case h_2 => cases found
  · rintro ⟨unended, rfl, after, rfl⟩
    have closed := upToClose?_append unended after
    simp [docComment, docText, closed]

/-- At each text with the marks of a doc comment something is found. -/
theorem exists_docComment (before : Option Char) (body after : List Char) :
    ∃ found, docComment before (docText body ++ after) = some found := by
  have ended : ['*', '/'] <:+: body ++ ['*', '/'] ++ after := ⟨body, after, rfl⟩
  obtain ⟨found, closed⟩ := exists_upToClose? ended
  exact ⟨_, congrArg (Option.map _) closed⟩

end

/-!
The doc comments of a script are lexemes.
-/

/-- The text between the marks, when the lexeme is a doc comment that is closed. -/
def Source.Lexeme.docBody? : Lexeme → Option (List Char)
  | .comment text => (after? ['/', '*', '*'] text).bind (before? ['*', '/'])
  | _ => none

/-- The doc comments of a script, each with its place. -/
def docsFrom (offset : Nat) : List Lexeme → List (Nat × List Char)
  | [] => []
  | part :: parts =>
    (part.docBody?.map (offset, ·)).toList ++ docsFrom (offset + part.text.length) parts

section

variable {offset : Nat} {parts : List Lexeme} {part : Lexeme} {body : List Char}

theorem docBody?_eq_some_iff : part.docBody? = some body ↔ part = .comment (docText body) := by
  cases part with
  | comment text =>
      simp only [Lexeme.docBody?, Option.bind_eq_some_iff, after?_eq_some, before?_eq_some,
        exists_eq_right, Lexeme.comment.injEq, docText]
      rfl
  | _ => simp [Lexeme.docBody?]

theorem docsFrom_append (offset : Nat) (parts more : List Lexeme) :
    docsFrom offset (parts ++ more) =
      docsFrom offset parts ++ docsFrom (offset + (textOf parts).length) more := by
  induction parts generalizing offset with
  | nil => rfl
  | cons part parts ih =>
      rw [List.cons_append, docsFrom, docsFrom, ih, textOf_cons, List.length_append,
        List.append_assoc, Nat.add_assoc]

theorem mem_docsFrom {doc : Nat × List Char} (member : doc ∈ docsFrom offset parts) :
    offset ≤ doc.1 ∧ doc.1 + (docText doc.2).length ≤ offset + (textOf parts).length ∧
      .comment (docText doc.2) ∈ parts := by
  induction parts generalizing offset with
  | nil => cases member
  | cons part parts ih =>
      rw [docsFrom, List.mem_append, Option.mem_toList, Option.map_eq_some_iff] at member
      rw [textOf_cons, List.length_append]
      rcases member with ⟨body, isDoc, rfl⟩ | member
      · obtain rfl := docBody?_eq_some_iff.mp isDoc
        exact ⟨le_rfl, by simp [Lexeme.text], List.mem_cons_self⟩
      · obtain ⟨above, below, isPart⟩ := ih member
        exact ⟨by omega, by omega, List.mem_cons_of_mem _ isPart⟩

/-- A doc comment that is a lexeme ends at its first end. -/
theorem unended_of_areLexemes {more : List Lexeme}
    (areLexemes : AreLexemes (.comment (docText body) :: more)) : ¬ ['*', '/'] <:+: body := by
  have ended : ['*', '/'] <:+: ('*' :: body) ++ ['*', '/'] ++ textOf more := ⟨_, _, rfl⟩
  obtain ⟨⟨inside, size⟩, closed⟩ := exists_upToClose? ended
  obtain ⟨unended, -, after, divided⟩ := upToClose?_eq_some closed
  cases areLexemes with
  | comment _ ends _ =>
      have regrouped : '*' :: '*' :: (body ++ ['*', '/']) ++ textOf more =
          '*' :: inside ++ '*' :: '/' :: after := congrArg ('*' :: ·) divided
      rw [regrouped, commentLength?_block unended] at ends
      have sameLength : ('*' :: body).length = inside.length := by simpa using ends.symm
      rw [List.append_assoc] at divided
      obtain rfl := (List.append_inj divided sameLength).1
      exact fun within => unended (within.trans (List.suffix_cons _ _).isInfix)

/-- No text with the marks of a doc comment begins in a lexeme that is no doc comment. -/
def MarkNoOther (parts : List Lexeme) : Prop :=
  ∀ front part back, parts = front ++ part :: back → part.docBody? = none →
    ∀ inner c more, part.text = inner ++ c :: more →
      ∀ before, docComment before (c :: more ++ textOf back) = none

/-- When no other lexeme holds the marks, the search finds the doc comments, each in its place. -/
theorem hitsFrom_docComment (areLexemes : AreLexemes parts) (marks : MarkNoOther parts)
    (before : Option Char) (offset : Nat) :
    hitsFrom docComment before offset 0 (textOf parts) = docsFrom offset parts := by
  induction parts generalizing before offset with
  | nil => rfl
  | cons part parts ih =>
      have behind := ih areLexemes.tail fun front other back divided =>
        marks (part :: front) other back (congrArg (part :: ·) divided)
      rw [textOf_cons, docsFrom]
      cases isDoc : part.docBody? with
      | none =>
          rw [hitsFrom_append fun inner c more isText =>
            marks [] part parts rfl isDoc inner c more isText _, behind]
          rfl
      | some body =>
          obtain rfl := docBody?_eq_some_iff.mp isDoc
          have found : docComment before (docText body ++ textOf parts) =
              some (body, (docText body).length) :=
            docComment_eq_some_iff.mpr ⟨unended_of_areLexemes areLexemes, rfl, _, rfl⟩
          have ne_nil : docText body ≠ [] := List.cons_ne_nil _ _
          rw [Lexeme.text, hitsFrom_hit ne_nil found, behind]
          rfl

end

/-- Each text with the marks of a doc comment begins in a doc comment of the script. -/
def MarksDocs (source : List Char) : Prop :=
  ∀ lead body rest, source = lead ++ docText body ++ rest →
    ∃ doc ∈ docsFrom 0 (lexemes source),
      doc.1 ≤ lead.length ∧ lead.length < doc.1 + (docText doc.2).length

section

variable {source : List Char}

theorem MarksDocs.markNoOther (marks : MarksDocs source) : MarkNoOther (lexemes source) := by
  intro front part back divided other inner c more isText before
  by_contra found
  obtain ⟨⟨body, size⟩, found⟩ := Option.ne_none_iff_exists'.mp found
  obtain ⟨-, -, after, isDoc⟩ := docComment_eq_some_iff.mp found
  have whole : source = (textOf front ++ inner) ++ docText body ++ after := by
    rw [← textOf_lexemes source, divided, textOf_append, textOf_cons, isText, List.append_assoc,
      List.append_assoc, List.append_assoc, ← isDoc]
  obtain ⟨doc, member, begins, reaches⟩ := marks _ _ _ whole
  have inPart : inner.length < part.text.length := by
    rw [isText, List.length_append, List.length_cons]
    omega
  rw [List.length_append] at begins reaches
  -- The doc comment stands before the lexeme, or behind it: the place is in neither.
  rw [divided, docsFrom_append, List.mem_append, docsFrom, other] at member
  rcases member with member | member
  · have := (mem_docsFrom member).2.1
    omega
  · have := (mem_docsFrom member).1
    omega

/-- The search finds the doc comments of a script if and only if their marks are nowhere
else. -/
theorem hits_docComment_eq_iff :
    hits docComment source = docsFrom 0 (lexemes source) ↔ MarksDocs source := by
  constructor
  · intro same lead body rest divided
    obtain ⟨⟨found, size⟩, seen⟩ := exists_docComment lead.getLast? body rest
    rw [← same]
    rw [List.append_assoc] at divided
    have ne_nil : docText body ++ rest ≠ [] := List.cons_ne_nil _ _
    rw [divided]
    rcases hits_complete ne_nil seen with hit | covered
    · exact ⟨_, hit, le_rfl, by simp [docText]⟩
    · obtain ⟨front, inner, other, taken, rfl, -, hit, earlier, reaches⟩ := covered
      obtain ⟨-, rfl, -⟩ := docComment_eq_some_iff.mp earlier
      refine ⟨_, hit, ?_, ?_⟩
      · simp
      · simpa using reaches
  · intro marks
    have found := hitsFrom_docComment (areLexemes_lexemes source) marks.markNoOther none 0
    rwa [textOf_lexemes] at found

end

/-!
What is made of a doc comment comes from its lines.
-/

section

variable {text line body word first : List Char} {source : List Char}

theorem trimLeft_isInfix (text : List Char) : trimLeft text <:+: text :=
  (List.dropWhile_suffix _).isInfix

theorem trimRight_isInfix (text : List Char) : trimRight text <:+: text :=
  (List.rdropWhile_prefix _ _).isInfix

theorem trim_isInfix (text : List Char) : trim text <:+: text :=
  (trimRight_isInfix _).trans (trimLeft_isInfix _)

theorem withoutGutter_isInfix (line : List Char) : withoutGutter line <:+: line := by
  refine (trimRight_isInfix _).trans (List.IsInfix.trans ?_ (trimLeft_isInfix line))
  split
  case h_1 rest same =>
    rw [same]
    exact ((List.suffix_cons _ _).trans (List.suffix_cons _ _)).isInfix
  case h_2 rest _ same =>
    rw [same]
    exact (List.suffix_cons _ _).isInfix
  case h_3 => exact List.infix_rfl

/-- What stands behind the word of a tag stands on its line. -/
theorem isInfix_of_tag? (isTag : tag? line = some (word, first)) : first <:+: line := by
  unfold tag? at isTag
  split at isTag
  case h_1 rest same =>
    rw [Option.ite_none_right_eq_some] at isTag
    obtain ⟨-, isTag⟩ := isTag
    cases isTag
    have within : rest.dropWhile isWord <:+: trim line := by
      rw [same]
      exact ((List.dropWhile_suffix _).trans (List.suffix_cons _ _)).isInfix
    exact (trimLeft_isInfix _).trans (within.trans (trim_isInfix line))
  case h_2 => cases isTag

/-- Each line of a section stands on a line of the comment. -/
theorem mem_exampleSections {rows part : List (List Char)} {current : Option (List (List Char))}
    (member : part ∈ exampleSections current rows) :
    ∀ piece ∈ part, (∃ opened ∈ current, piece ∈ opened) ∨ ∃ row ∈ rows, piece <:+: row := by
  induction rows generalizing current with
  | nil =>
      intro piece isPiece
      rw [exampleSections, Option.mem_toList] at member
      exact .inl ⟨part, member, isPiece⟩
  | cons line rows ih =>
      intro piece isPiece
      rw [exampleSections] at member
      split at member
      case h_1 word first isTag =>
        rcases List.mem_append.mp member with member | member
        · exact .inl ⟨part, Option.mem_toList.mp member, isPiece⟩
        · rcases ih member piece isPiece with ⟨opened, isOpen, isPiece⟩ | ⟨row, isRow, within⟩
          · rw [Option.mem_def, Option.ite_none_right_eq_some] at isOpen
            obtain ⟨-, isOpen⟩ := isOpen
            cases isOpen
            obtain rfl := List.mem_singleton.mp isPiece
            exact .inr ⟨line, List.mem_cons_self, isInfix_of_tag? isTag⟩
          · exact .inr ⟨row, List.mem_cons_of_mem _ isRow, within⟩
      case h_2 =>
        rcases ih member piece isPiece with ⟨opened, isOpen, isPiece⟩ | ⟨row, isRow, within⟩
        · obtain ⟨before, isCurrent, rfl⟩ := Option.map_eq_some_iff.mp isOpen
          rcases List.mem_append.mp isPiece with isPiece | isPiece
          · exact .inl ⟨before, isCurrent, isPiece⟩
          · obtain rfl := List.mem_singleton.mp isPiece
            exact .inr ⟨_, List.mem_cons_self, List.infix_rfl⟩
        · exact .inr ⟨row, List.mem_cons_of_mem _ isRow, within⟩

theorem isInfix_of_mem_docLines (member : line ∈ docLines body) : line <:+: body := by
  obtain ⟨row, isRow, rfl⟩ := List.mem_map.mp member
  exact (withoutGutter_isInfix row).trans (mem_lines isRow).1

/-- Each line of the text is part of a line of a doc comment: one of the comments that are removed
from the script, which begins with a slash and two stars and is more than an empty comment. -/
def IsFromDocs (source text : List Char) : Prop :=
  ∀ line ∈ lines text, ∃ comment, .comment comment ∈ lexemes source ∧
    ['/', '*', '*'] <+: comment ∧ comment ≠ ['/', '*', '*', '/'] ∧
    ∃ row ∈ lines comment, line <:+: row

theorem isFromDocs_of_isInfix (isDoc : .comment (docText body) ∈ lexemes source)
    (within : ∀ line, '\n' ∉ line → line <:+: text → line = [] ∨ line <:+: body) :
    IsFromDocs source text := by
  intro line member
  obtain ⟨inText, unbroken⟩ := mem_lines member
  have noBreak : '\n' ∉ line := fun isBreak => by cases unbroken '\n' isBreak
  have inDoc : line <:+: docText body := by
    rcases within line noBreak inText with rfl | inBody
    · exact List.nil_infix
    · exact inBody.trans ⟨['/', '*', '*'], ['*', '/'], by simp [docText]⟩
  refine ⟨docText body, isDoc, ⟨_, rfl⟩, ?_, exists_line ⟨inDoc, unbroken⟩ (List.cons_ne_nil _ _)⟩
  intro same
  simpa [docText] using congrArg List.length same

end

/-- The search finds the doc comments of the script, each in its place, if and only if the marks of
a doc comment begin in none but these; then descriptions and usage examples come from them. -/
theorem documentation_fromDocs (source : List Char) :
    (hits docComment source = docsFrom 0 (lexemes source) ↔ MarksDocs source) ∧
      (MarksDocs source →
        (∀ text ∈ descriptionOf source, IsFromDocs source text) ∧
          ∀ text ∈ usageExamples source, IsFromDocs source text) := by
  refine ⟨hits_docComment_eq_iff, fun marks => ?_⟩
  have isDoc : ∀ body ∈ docComments source, .comment (docText body) ∈ lexemes source := by
    intro body isBody
    obtain ⟨doc, isHit, rfl⟩ := List.mem_map.mp isBody
    rw [hits_docComment_eq_iff.mpr marks] at isHit
    exact (mem_docsFrom isHit).2.2
  constructor
  · intro text isDescription
    obtain ⟨body, isFirst, isDescription⟩ := Option.bind_eq_some_iff.mp isDescription
    obtain ⟨line, isLine, isDescription⟩ := Option.bind_eq_some_iff.mp isDescription
    rw [Option.ite_none_left_eq_some] at isDescription
    obtain ⟨-, isText⟩ := isDescription
    cases isText
    obtain ⟨docLine, isDocLine, rfl⟩ := List.mem_map.mp (List.mem_of_find?_eq_some isLine)
    refine isFromDocs_of_isInfix (isDoc body (List.mem_of_head? isFirst)) fun line _ within => ?_
    exact .inr (within.trans ((trim_isInfix docLine).trans (isInfix_of_mem_docLines isDocLine)))
  · intro text isExample
    obtain ⟨isExample, -⟩ := List.mem_filter.mp isExample
    obtain ⟨body, isBody, isExample⟩ := List.mem_flatMap.mp isExample
    obtain ⟨part, isPart, rfl⟩ := List.mem_map.mp isExample
    refine isFromDocs_of_isInfix (isDoc body isBody) fun line noBreak within => ?_
    refine (isInfix_joinWith (within.trans (trim_isInfix _)) noBreak).imp_right ?_
    rintro ⟨piece, isPiece, within⟩
    rcases mem_exampleSections isPart piece isPiece with ⟨opened, isOpen, -⟩ | ⟨row, isRow, inRow⟩
    · cases isOpen
    · exact within.trans (inRow.trans (isInfix_of_mem_docLines isRow))

/-- A card with a doc comment, a line comment and an empty comment. -/
def documentedCard : List Char :=
  "/** Shows a card.\n * @example\n * <Card />\n */\n// const old = 1;\n".toList ++
    "const Card = 1; /**/\n".toList

theorem documentation_documentedCard :
    descriptionOf documentedCard = some "Shows a card.".toList ∧
      usageExamples documentedCard = ["<Card />".toList] ∧
      IsFromDocs documentedCard "Shows a card.".toList ∧
      IsFromDocs documentedCard "<Card />".toList := by
  have description : descriptionOf documentedCard = some "Shows a card.".toList := by decide +kernel
  have examples : usageExamples documentedCard = ["<Card />".toList] := by decide +kernel
  have marks : MarksDocs documentedCard :=
    (documentation_fromDocs documentedCard).1.mp (by decide +kernel)
  obtain ⟨ofDescription, ofExamples⟩ := (documentation_fromDocs documentedCard).2 marks
  exact ⟨description, examples, ofDescription _ description, ofExamples _ (by simp [examples])⟩

end ComponentAtlas
