/-
Module: ComponentAtlas.Proofs.Component.Examples
Purpose: The usage examples of a source are the example sections that were written into its doc
  comments.
Main exports:
  TagSection, DocComment, DocScript, DocScript.IsWritten, docLines_body, map_exampleSections,
  docComments_text, usageExamples_docScript
-/
import ComponentAtlas.Proofs.Component.Documentation
import ComponentAtlas.Proofs.Text.Alphanumeric
import ComponentAtlas.Proofs.Text.Words

namespace ComponentAtlas

open ComponentAtlas.Text

/-!
A doc comment is written line by line, each line behind a gutter of blanks, a star and a space:
first plain lines, then sections that a tag opens.
-/

/-- A section of a doc comment: the word of its tag, the rest of the line of the tag, and the lines
below it. -/
structure TagSection where
  tag : List Char
  first : List Char
  body : List (List Char)

namespace TagSection

/-- The line that opens the section. -/
def head (part : TagSection) : List Char := '@' :: (part.tag ++ part.first)

def rows (part : TagSection) : List (List Char) := part.head :: part.body

def isExample (part : TagSection) : Bool := part.tag = "example".toList

/-- What the section says: the rest of its first line and the lines below, without the blanks at
the end of each line and around the whole. -/
def text (part : TagSection) : List Char :=
  trim (joinWith ['\n'] ((part.first :: part.body).map trimRight))

end TagSection

/-- A doc comment: the blanks in front of the star of each line, and what stands behind it. -/
structure DocComment where
  margin : List Char
  plain : List (List Char)
  sections : List TagSection

namespace DocComment

def rows (doc : DocComment) : List (List Char) :=
  doc.plain ++ doc.sections.flatMap TagSection.rows

/-- A line behind its gutter. -/
def ruled (doc : DocComment) (row : List Char) : List Char := doc.margin ++ '*' :: ' ' :: row

/-- The text between the marks. -/
def body (doc : DocComment) : List Char :=
  joinWith ['\n'] (([] :: doc.rows.map doc.ruled) ++ [doc.margin])

end DocComment

/-- Doc comments, each with what stands before it, and what stands behind the last one. -/
structure DocScript where
  items : List (List Char × DocComment)
  trail : List Char

namespace DocScript

def text (script : DocScript) : List Char :=
  (script.items.flatMap fun item => item.1 ++ docText item.2.body) ++ script.trail

/-- The sections of all comments in their order. -/
def sections (script : DocScript) : List TagSection := script.items.flatMap (·.2.sections)

end DocScript

/-- A line that may stand in a doc comment: it goes over no line break, and it does not end the
comment. -/
structure IsRow (row : List Char) : Prop where
  unbroken : ∀ c ∈ row, isLineBreak c = false
  unended : ¬ ['*', '/'] <:+: row

/-- But for blanks, the line begins with an at sign and a character of a word. -/
def opensTag (row : List Char) : Bool :=
  match trim row with
  | '@' :: c :: _ => isWord c
  | _ => false

/-- A line that opens no section. -/
structure IsPlainRow (row : List Char) : Prop extends IsRow row where
  untagged : opensTag row = false

/-- The tag is a word that ends where the rest of its line begins. -/
structure TagSection.IsWritten (part : TagSection) : Prop where
  ne_nil : part.tag ≠ []
  tag : ∀ c ∈ part.tag, isWord c
  first : part.first.head?.any isWord = false
  head : IsRow part.head
  body : ∀ row ∈ part.body, IsPlainRow row

structure DocComment.IsWritten (doc : DocComment) : Prop where
  margin : ∀ c ∈ doc.margin, isBlank c ∧ isLineBreak c = false
  plain : ∀ row ∈ doc.plain, IsPlainRow row
  sections : ∀ part ∈ doc.sections, part.IsWritten

/-- What stands around the comments does not open another one. -/
structure DocScript.IsWritten (script : DocScript) : Prop where
  items : ∀ item ∈ script.items, ¬ ['/', '*', '*'] <:+: item.1 ∧ item.2.IsWritten
  trail : ¬ ['/', '*', '*'] <:+: script.trail

-- The local instances keep the tests to the members: there is one of all characters there are.
instance : DecidablePred IsRow := fun row =>
  letI := List.decidableBAll (isLineBreak · = false) row
  decidable_of_iff ((∀ c ∈ row, isLineBreak c = false) ∧ ¬ ['*', '/'] <:+: row)
    ⟨fun ⟨unbroken, unended⟩ => ⟨unbroken, unended⟩, fun isRow => ⟨isRow.unbroken, isRow.unended⟩⟩

instance : DecidablePred IsPlainRow := fun row =>
  decidable_of_iff (IsRow row ∧ opensTag row = false)
    ⟨fun ⟨isRow, untagged⟩ => ⟨isRow, untagged⟩, fun isPlain => ⟨isPlain.toIsRow, isPlain.untagged⟩⟩

instance : DecidablePred TagSection.IsWritten := fun part =>
  letI := List.decidableBAll (isWord ·) part.tag
  decidable_of_iff
    (part.tag ≠ [] ∧ (∀ c ∈ part.tag, isWord c) ∧ part.first.head?.any isWord = false ∧
      IsRow part.head ∧ ∀ row ∈ part.body, IsPlainRow row)
    ⟨fun ⟨ne_nil, tag, first, head, body⟩ => ⟨ne_nil, tag, first, head, body⟩,
      fun written => ⟨written.ne_nil, written.tag, written.first, written.head, written.body⟩⟩

instance : DecidablePred DocComment.IsWritten := fun doc =>
  letI := List.decidableBAll (fun c => isBlank c ∧ isLineBreak c = false) doc.margin
  decidable_of_iff
    ((∀ c ∈ doc.margin, isBlank c ∧ isLineBreak c = false) ∧
      (∀ row ∈ doc.plain, IsPlainRow row) ∧ ∀ part ∈ doc.sections, part.IsWritten)
    ⟨fun ⟨margin, plain, sections⟩ => ⟨margin, plain, sections⟩,
      fun written => ⟨written.margin, written.plain, written.sections⟩⟩

instance : DecidablePred DocScript.IsWritten := fun script =>
  decidable_of_iff
    ((∀ item ∈ script.items, ¬ ['/', '*', '*'] <:+: item.1 ∧ item.2.IsWritten) ∧
      ¬ ['/', '*', '*'] <:+: script.trail)
    ⟨fun ⟨items, trail⟩ => ⟨items, trail⟩, fun written => ⟨written.items, written.trail⟩⟩

/-!
The lines of a comment are those that were written, without the gutter.
-/

section

variable {doc : DocComment} {row : List Char}

theorem DocComment.IsWritten.isRow (written : doc.IsWritten) : ∀ row ∈ doc.rows, IsRow row := by
  intro row member
  rcases List.mem_append.mp member with isPlain | inSection
  · exact (written.plain row isPlain).toIsRow
  · obtain ⟨part, isPart, member⟩ := List.mem_flatMap.mp inSection
    have isWritten := written.sections part isPart
    rcases List.mem_cons.mp member with rfl | inBody
    · exact isWritten.head
    · exact (isWritten.body row inBody).toIsRow

theorem DocComment.IsWritten.isAllBlank_margin (written : doc.IsWritten) :
    isAllBlank doc.margin :=
  List.all_eq_true.mpr fun c member => (written.margin c member).1

theorem DocComment.IsWritten.slash_notMem_margin (written : doc.IsWritten) :
    '/' ∉ doc.margin := by
  intro member
  have isBlank : isBlank '/' = true := (written.margin _ member).1
  cases isBlank

theorem DocComment.IsWritten.isRow_ruled (written : doc.IsWritten) (isRow : IsRow row) :
    IsRow (doc.ruled row) := by
  constructor
  · intro c member
    simp only [DocComment.ruled, List.mem_append, List.mem_cons] at member
    rcases member with inMargin | rfl | rfl | inRow
    · exact (written.margin c inMargin).2
    · rfl
    · rfl
    · exact isRow.unbroken c inRow
  · intro ended
    have divided : doc.ruled row = (doc.margin ++ ['*']) ++ ' ' :: row := by
      simp [DocComment.ruled]
    rw [divided] at ended
    -- The end of a comment holds no space, so it would stand before that of the gutter or behind.
    rcases isInfix_append_cons ended (by decide) with inGutter | inRow
    · have isMark : '/' ∈ doc.margin ++ ['*'] := inGutter.subset (by simp)
      apply written.slash_notMem_margin
      simpa using isMark
    · exact isRow.unended inRow

/-- A comment ends where it was ended. -/
theorem DocComment.IsWritten.unended_body (written : doc.IsWritten) :
    ¬ ['*', '/'] <:+: doc.body := by
  intro ended
  rcases isInfix_joinWith ended (by decide) with isNil | ⟨piece, member, within⟩
  · cases isNil
  · simp only [List.cons_append, List.mem_cons, List.mem_append, List.mem_map,
      List.not_mem_nil, or_false] at member
    rcases member with rfl | ⟨row, isRow, rfl⟩ | rfl
    · cases List.infix_nil.mp within
    · exact (written.isRow_ruled (written.isRow row isRow)).unended within
    · exact written.slash_notMem_margin (within.subset (by simp))

theorem DocComment.IsWritten.withoutGutter_ruled (written : doc.IsWritten) (row : List Char) :
    withoutGutter (doc.ruled row) = trimRight row := by
  have starts : trimLeft (doc.ruled row) = '*' :: ' ' :: row :=
    trimLeft_append_cons written.isAllBlank_margin rfl _
  rw [withoutGutter, starts]
  rfl

/-- The last line of a comment holds its end and nothing else. -/
theorem DocComment.IsWritten.docLines_margin (written : doc.IsWritten) :
    docLines doc.margin = [] ∨ docLines doc.margin = [[]] := by
  by_cases isNil : doc.margin = []
  · left
    rw [isNil]
    rfl
  · right
    have unbroken : ∀ c ∈ doc.margin, isLineBreak c = false := fun c member =>
      (written.margin c member).2
    have blank : trimLeft doc.margin = [] :=
      List.dropWhile_eq_nil_iff.mpr fun c member => (written.margin c member).1
    rw [docLines, lines_eq_singleton isNil unbroken, List.map_singleton, withoutGutter, blank]
    rfl

/-- The lines that are read are those that were written. -/
theorem DocComment.IsWritten.docLines_body (written : doc.IsWritten) :
    docLines doc.body = [] :: doc.rows.map trimRight ++ docLines doc.margin := by
  have unbroken : ∀ row ∈ [] :: doc.rows.map doc.ruled, ∀ c ∈ row, isLineBreak c = false := by
    rw [List.forall_mem_cons, List.forall_mem_map]
    refine ⟨by simp, fun row isRow => ?_⟩
    exact (written.isRow_ruled (written.isRow row isRow)).unbroken
  have rows : (doc.rows.map doc.ruled).map withoutGutter = doc.rows.map trimRight := by
    rw [List.map_map]
    exact List.map_congr_left fun row _ => written.withoutGutter_ruled row
  rw [docLines, DocComment.body, lines_joinWith unbroken, List.map_append, List.map_cons, rows]
  rfl

end

/-!
The sections are told apart line by line.
-/

section

variable {part : TagSection} {sections : List TagSection} {row : List Char}
  {rows ending : List (List Char)} {current : Option (List (List Char))}

theorem IsPlainRow.tag?_trimRight (isPlain : IsPlainRow row) : tag? (trimRight row) = none := by
  have untagged := isPlain.untagged
  rw [tag?, trim_trimRight]
  split
  case h_1 rest opens =>
    apply if_neg
    intro isTag
    cases rest with
    | nil => cases isTag
    | cons c rest =>
        rw [opensTag, opens] at untagged
        exact absurd isTag (by simpa using untagged)
  case h_2 => rfl

theorem TagSection.IsWritten.trim_head (written : part.IsWritten) :
    trim part.head = '@' :: (part.tag ++ trimRight part.first) := by
  obtain ⟨begin, last, isTag⟩ := List.eq_nil_or_concat part.tag |>.resolve_left written.ne_nil
  have word : isBlank last = false := isBlank_of_isWord (written.tag last (by simp [isTag]))
  have left : trimLeft part.head = ('@' :: begin) ++ last :: part.first := by
    rw [TagSection.head, trimLeft, List.dropWhile_cons_of_neg (by decide), isTag]
    simp
  rw [trim, left, trimRight_append_cons word, isTag]
  simp

/-- The line that opens a section is read as its tag. -/
theorem TagSection.IsWritten.tag?_head (written : part.IsWritten) :
    tag? (trimRight part.head) = some (part.tag, trimLeft (trimRight part.first)) := by
  have ends : ∀ c ∈ (trimRight part.first).head?, isWord c = false := by
    intro c isHead
    obtain ⟨after, -, divided⟩ := exists_trimRight part.first
    have isFirst : part.first.head? = some c := by
      rw [divided, List.head?_append, isHead]
      rfl
    have first := written.first
    rw [isFirst] at first
    exact first
  have opens : (part.tag ++ trimRight part.first).head?.any isWord = true := by
    obtain ⟨c, rest, isTag⟩ := List.exists_cons_of_ne_nil written.ne_nil
    rw [isTag]
    exact written.tag c (isTag ▸ List.mem_cons_self)
  obtain ⟨isTag, isRest⟩ := takeWhile_append_stop written.tag ends
  rw [tag?, trim_trimRight, written.trim_head]
  simp only [opens, isTag, isRest, if_true]

/-- Lines without a tag belong to the section that is open. -/
theorem exampleSections_append (none : ∀ row ∈ rows, tag? row = none) (others : List (List Char)) :
    exampleSections current (rows ++ others) =
      exampleSections (current.map (· ++ rows)) others := by
  induction rows generalizing current with
  | nil => cases current <;> simp
  | cons row rows ih =>
      obtain ⟨untagged, later⟩ := List.forall_mem_cons.mp none
      rw [List.cons_append, exampleSections, untagged]
      dsimp only
      rw [ih later, Option.map_map]
      congr 2
      funext opened
      simp

/-- A last line that is empty adds nothing to an example. -/
theorem exampleText_append_nil (rows : List (List Char)) :
    exampleText (rows ++ [[]]) = exampleText rows := by
  by_cases isNil : rows = []
  · rw [isNil]
    rfl
  · rw [exampleText, joinWith_append_singleton isNil]
    exact trim_append_blanks rfl

/-- The blanks behind the tag are not part of an example. -/
theorem exampleText_trimLeft (first : List Char) (rows : List (List Char)) :
    exampleText (trimLeft first :: rows) = exampleText (first :: rows) := by
  obtain ⟨gap, isGap, divided⟩ := exists_trimLeft first
  have whole : joinWith ['\n'] (first :: rows) =
      gap ++ joinWith ['\n'] (trimLeft first :: rows) := by
    cases rows with
    | nil => exact divided
    | cons row rows =>
        rw [joinWith.eq_3 _ _ _ (List.cons_ne_nil _ _), joinWith.eq_3 _ _ _ (List.cons_ne_nil _ _)]
        conv_lhs => rw [divided]
        simp only [List.append_assoc]
  rw [exampleText, exampleText, whole, trim_append_of_isAllBlank isGap]

/-- Each example section gives its text, whatever stands between. -/
theorem map_exampleSections (written : ∀ part ∈ sections, part.IsWritten)
    (isEnd : ending = [] ∨ ending = [[]]) :
    (exampleSections current
        ((sections.flatMap TagSection.rows).map trimRight ++ ending)).map exampleText =
      current.toList.map exampleText ++
        (sections.filter TagSection.isExample).map TagSection.text := by
  induction sections generalizing current with
  | nil =>
      have untagged : ∀ row ∈ ending, tag? row = none := by
        rcases isEnd with rfl | rfl
        · exact List.forall_mem_nil _
        · exact List.forall_mem_singleton.mpr rfl
      rw [List.flatMap_nil, List.map_nil, List.nil_append, ← List.append_nil ending,
        exampleSections_append untagged]
      cases current with
      | none => rfl
      | some opened =>
          rcases isEnd with rfl | rfl
          · simp [exampleSections]
          · simp [exampleSections, exampleText_append_nil]
  | cons part sections ih =>
      obtain ⟨isWritten, later⟩ := List.forall_mem_cons.mp written
      have untagged : ∀ row ∈ part.body.map trimRight, tag? row = none :=
        List.forall_mem_map.mpr fun row member => (isWritten.body row member).tag?_trimRight
      have divided : ((part :: sections).flatMap TagSection.rows).map trimRight ++ ending =
          trimRight part.head :: (part.body.map trimRight ++
            ((sections.flatMap TagSection.rows).map trimRight ++ ending)) := by
        simp [TagSection.rows]
      rw [divided, exampleSections, isWritten.tag?_head]
      dsimp only
      rw [exampleSections_append untagged, List.map_append, ih later, List.filter_cons]
      congr 1
      by_cases isExample : part.tag = "example".toList
      · have text : exampleText ([trimLeft (trimRight part.first)] ++ part.body.map trimRight) =
            part.text := exampleText_trimLeft _ _
        have isHere : part.isExample = true := decide_eq_true isExample
        rw [if_pos isExample, if_pos isHere, List.map_cons, ← text]
        rfl
      · have notHere : ¬ part.isExample = true := fun isHere => isExample (of_decide_eq_true isHere)
        rw [if_neg isExample, if_neg notHere]
        rfl

end

/-!
The comments are found one by one, and nothing is found between them.
-/

section

variable {gap rest : List Char} {items : List (List Char × DocComment)}

/-- Between the comments nothing opens one: neither what stands there alone, nor together with the
marks of the comment behind it. -/
theorem docComment_eq_none_of_absent (absent : ¬ ['/', '*', '*'] <:+: gap)
    (behind : ∀ c ∈ rest.head?, c = '/') :
    ∀ other c after, gap = other ++ c :: after →
      ∀ before, docComment before (c :: after ++ rest) = none := by
  intro other c after divided before
  by_contra found
  obtain ⟨⟨body, size⟩, found⟩ := Option.ne_none_iff_exists'.mp found
  obtain ⟨-, -, more, isDoc⟩ := docComment_eq_some_iff.mp found
  obtain ⟨isSlash, isRest⟩ : c = '/' ∧ after ++ rest = '*' :: '*' :: (body ++ ['*', '/'] ++ more) :=
    List.cons.inj isDoc
  -- The two stars stand before the end of the gap, since no star stands behind it.
  have notStar : ∀ others, rest ≠ '*' :: others := by
    intro others same
    have isSlash : '*' = '/' := behind '*' (by rw [same]; rfl)
    cases isSlash
  cases after with
  | nil => exact notStar _ isRest
  | cons d after =>
      obtain ⟨isStar, isRest⟩ := List.cons.inj isRest
      cases after with
      | nil => exact notStar _ isRest
      | cons e after =>
          obtain ⟨isSecond, -⟩ := List.cons.inj isRest
          apply absent
          exact ⟨other, after, by simp [divided, isSlash, isStar, isSecond]⟩

/-- The search finds each comment that was written. -/
theorem map_hitsFrom_items
    (written : ∀ item ∈ items, ¬ ['/', '*', '*'] <:+: item.1 ∧ item.2.IsWritten)
    {trail : List Char} (noTrail : ¬ ['/', '*', '*'] <:+: trail) (before : Option Char)
    (offset : Nat) :
    (hitsFrom docComment before offset 0
        ((items.flatMap fun item => item.1 ++ docText item.2.body) ++ trail)).map (·.2) =
      items.map (·.2.body) := by
  induction items generalizing before offset with
  | nil =>
      have passes : Yields docComment before trail [] [] :=
        .pass fun other c after divided =>
          docComment_eq_none_of_absent noTrail (by simp) other c after divided _
      have nothing := passes offset
      rw [List.append_nil] at nothing
      rw [List.flatMap_nil, List.nil_append, nothing]
      rfl
  | cons item items ih =>
      obtain ⟨⟨noGap, isWritten⟩, later⟩ := List.forall_mem_cons.mp written
      have divided : ((item :: items).flatMap fun item => item.1 ++ docText item.2.body) ++ trail =
          (item.1 ++ docText item.2.body) ++
            ((items.flatMap fun item => item.1 ++ docText item.2.body) ++ trail) := by
        simp
      have passes : Yields docComment before item.1 [] (docText item.2.body ++
          ((items.flatMap fun item => item.1 ++ docText item.2.body) ++ trail)) :=
        .pass fun other c after divided =>
          docComment_eq_none_of_absent noGap (by simp [docText]) other c after divided _
      have hit : Yields docComment (lastOf item.1 before) (docText item.2.body)
          [(0, item.2.body)]
          ((items.flatMap fun item => item.1 ++ docText item.2.body) ++ trail) :=
        .hit (List.cons_ne_nil _ _)
          (docComment_eq_some_iff.mpr ⟨isWritten.unended_body, rfl, _, rfl⟩)
      rw [divided, passes.append hit offset, List.map_append, ih later]
      rfl

theorem DocScript.IsWritten.docComments_text {script : DocScript} (written : script.IsWritten) :
    docComments script.text = script.items.map (·.2.body) :=
  map_hitsFrom_items written.items written.trail none 0

/-- Each example section of a comment gives one example. -/
theorem DocComment.IsWritten.examples {doc : DocComment} (written : doc.IsWritten) :
    (exampleSections none (docLines doc.body)).map exampleText =
      (doc.sections.filter TagSection.isExample).map TagSection.text := by
  have untagged : ∀ row ∈ [] :: doc.plain.map trimRight, tag? row = none := by
    rw [List.forall_mem_cons, List.forall_mem_map]
    exact ⟨rfl, fun row member => (written.plain row member).tag?_trimRight⟩
  have divided : docLines doc.body = ([] :: doc.plain.map trimRight) ++
      ((doc.sections.flatMap TagSection.rows).map trimRight ++ docLines doc.margin) := by
    rw [written.docLines_body, DocComment.rows, List.map_append]
    simp only [List.cons_append, List.append_assoc]
  rw [divided, exampleSections_append untagged,
    map_exampleSections written.sections written.docLines_margin]
  rfl

end

/-- The usage examples of a source are what its example sections say, in their order and without
those that say nothing. -/
theorem usageExamples_docScript (script : DocScript) (written : script.IsWritten) :
    usageExamples script.text =
      ((script.sections.filter TagSection.isExample).map TagSection.text).filter (· ≠ []) := by
  have examples : (script.items.map (·.2.body)).flatMap
      (fun body => (exampleSections none (docLines body)).map exampleText) =
        (script.sections.filter TagSection.isExample).map TagSection.text := by
    rw [List.flatMap_map, DocScript.sections, List.filter_flatMap, List.map_flatMap]
    apply List.flatMap_congr
    intro item member
    exact (written.items item member).2.examples
  rw [usageExamples, written.docComments_text, examples]
  apply List.filter_congr
  intro text _
  cases text <;> rfl

/-- Two comments with examples that follow each other, stop at another tag, and end with their
comment; their lines begin with spaces and with a star, and one example says nothing. -/
def buttonScript : DocScript where
  items :=
    [("import React from 'react';\n".toList,
      ⟨[' '], ["Shows a button.".toList, []],
        [⟨"example".toList, " Basic ".toList,
          ["<Button".toList, "  title=\"Save\" ".toList, "/>".toList]⟩,
        ⟨"example".toList, [], ["* starred".toList, [], "* twice".toList]⟩,
        ⟨"returns".toList, " an element".toList, ["  of a page".toList]⟩]⟩),
    ("\nexport const Button = 1; // a / b\n  ".toList,
      ⟨"   ".toList, [],
        [⟨"example".toList, " ".toList, []⟩,
        ⟨"example".toList, "\t<Button />".toList, [[]]⟩]⟩)]
  trail := ['*', '*', '\n']

theorem usageExamples_buttonScript :
    buttonScript.IsWritten ∧
      usageExamples buttonScript.text =
        ["Basic\n<Button\n  title=\"Save\"\n/>".toList, "* starred\n\n* twice".toList,
          "<Button />".toList] := by
  have written : buttonScript.IsWritten := by decide +kernel
  refine ⟨written, ?_⟩
  rw [usageExamples_docScript buttonScript written]
  decide +kernel

end ComponentAtlas
