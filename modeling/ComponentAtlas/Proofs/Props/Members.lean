/-
Module: ComponentAtlas.Proofs.Props.Members
Purpose: Every member of a written props type is read, with its comment and its whole
  type.
Main exports:
  readingFrom, readingFrom_signature, membersOf_of_isWritten
-/
import ComponentAtlas.Proofs.Props.Signature

namespace ComponentAtlas.Props

open ComponentAtlas.Text
open ComponentAtlas.Source

/-!
The comments of a segment: none in a text without their marks, and the one that a comment
in front of a member is.
-/

section

variable {text rest inside : List Char}

theorem throughClose?_of_unended (unended : ¬ ['*', '/'] <:+: inside) :
    throughClose? (inside ++ '*' :: '/' :: rest) = some (inside.length + 2) := by
  induction inside with
  | nil => simp [throughClose?]
  | cons c inside ih =>
      rw [List.infix_cons_iff, not_or] at unended
      have goesOn : ∀ more, c = '*' → inside ++ '*' :: '/' :: rest ≠ '/' :: more := by
        rintro more rfl same
        cases inside with
        | nil => cases same
        | cons d inside =>
            cases same
            exact unended.1 (by simp)
      rw [List.cons_append, throughClose?.eq_3 _ _ goesOn, ih unended.2]
      simp

theorem commentHere_of_noMark (before : Option Char)
    (noMark : ¬ ['/', '/'] <+: text ∧ ¬ ['/', '*'] <+: text) : commentHere before text = none := by
  unfold commentHere
  split
  · exact absurd (by simp) noMark.2
  · exact absurd (by simp) noMark.1
  · rfl

theorem comments_of_markFree (markFree : MarkFree text) : comments text = [] := by
  have nowhere : Nowhere commentHere none text := by
    rintro lead rest rfl
    have markFree : MarkFree rest := markFree.of_infix (List.suffix_append _ _).isInfix
    exact commentHere_of_noMark _
      ⟨fun mark => markFree.1 mark.isInfix, fun mark => markFree.2 mark.isInfix⟩
  rw [comments, hits, hitsFrom_eq_nil nowhere, List.map_nil]

theorem commentHere_comment {doc : Doc} (written : doc.IsWritten) (before : Option Char) :
    commentHere before (doc.comment ++ []) = some (doc.comment, doc.comment.length) := by
  have close := @throughClose?_of_unended [] ('*' :: doc.inside) written.unended
  have size : doc.comment.length = ('*' :: doc.inside).length + 2 + 2 := by
    simp [Doc.comment]
  rw [List.append_nil, size]
  unfold Doc.comment commentHere
  rw [List.cons_append, List.cons_append]
  simp only [close, Option.map_some]
  rw [List.take_of_length_le (by simp)]

theorem comments_text {doc : Doc} (written : doc.IsWritten) :
    comments doc.text = [doc.comment] := by
  have noHit : ∀ other c after, doc.before = other ++ c :: after →
      commentHere (lastOf other none) (c :: after ++ (doc.comment ++ [])) = none := by
    intro other c after divided
    have neutral := written.before.isNeutral c (by simp [divided])
    have other : c ≠ '/' := by rintro rfl; cases neutral
    exact commentHere_of_noMark _
      ⟨fun mark => other (List.cons_prefix_cons.mp mark).1.symm,
        fun mark => other (List.cons_prefix_cons.mp mark).1.symm⟩
  rw [comments, hits, Doc.text, ← List.append_nil doc.comment, hitsFrom_append noHit,
    hitsFrom_hit (by simp [Doc.comment]) (commentHere_comment written _)]
  simp [hitsFrom]

theorem Doc.IsWritten.isGap {doc : Doc} (written : doc.IsWritten) : IsGap doc.text :=
  .append_left written.before.isAllBlank (.blockComment ('*' :: doc.inside) written.unended .nil)

theorem Piece.of_doc {doc : Doc} (written : doc.IsWritten) (separator : Option Char) :
    Piece.of { text := doc.text, separator := separator } =
      { code := [], comment := commentText doc.comment, separator := separator } := by
  have noCode : trim (withoutComments doc.text) = [] :=
    trim_eq_nil_iff.mpr written.isGap.isAllBlank_withoutComments
  simp [Piece.of, noCode, comments_text written]

theorem Piece.of_markFree (markFree : MarkFree text) (separator : Option Char) :
    Piece.of { text := text, separator := separator } =
      { code := trim text, comment := none, separator := separator } := by
  simp [Piece.of, markFree.withoutComments, comments_of_markFree markFree]

end

/-!
The first line of a member says its name and whether it may be missing.
-/

section

variable {name : Name} {rest : List Char} {signature : Signature}

theorem continuesName_of_isBlank {c : Char} (blank : isBlank c) : continuesName c = false := by
  have other : c ≠ '$' := ne_of_isBlank blank rfl
  simp [continuesName, isWord_of_isBlank blank, other]

theorem notLineQuote_of_isWord_or {c : Char} (word : isWord c ∨ c = '$') :
    isLineQuote c = false := by
  have neutral := isNeutral_of_isWord_or word
  simp only [isNeutral, Bool.and_eq_true] at neutral
  have notQuote := (isSingle_of_isOrdinary neutral.1).1
  simp only [isQuote, Bool.or_eq_false_iff] at notQuote
  exact notQuote.1

theorem Name.IsName.name?_append (isName : name.IsName)
    (stop : ∀ c ∈ rest.head?, continuesName c = false) :
    name? (name.written ++ rest) = some (name.written, rest) := by
  cases name with
  | word text =>
      obtain ⟨starts, continues⟩ := isName
      cases text with
      | nil => cases starts
      | cons c text =>
          rw [List.forall_mem_cons] at continues
          have notQuote := notLineQuote_of_isWord_or continues.1
          have all : ∀ d ∈ text, continuesName d := by
            intro d member
            simpa [continuesName] using continues.2 d member
          have starts : startsName c := by simpa using starts
          obtain ⟨taken, dropped⟩ := takeWhile_append_stop all stop
          simp [Name.written, name?, notQuote, starts, taken, dropped]
  | quoted quote text =>
      obtain ⟨line, ne_nil, _, plain⟩ := isName
      have all : ∀ c ∈ text, decide (c ≠ quote) := fun c member => by simp [(plain c member).1]
      obtain ⟨taken, dropped⟩ := takeWhile_append_stop all
        (show ∀ c ∈ (quote :: rest).head?, decide (c ≠ quote) = false by simp)
      simp only [Name.written, List.cons_append, List.append_assoc, List.nil_append, name?, line,
        if_true, quotedName?, taken, dropped]

theorem Name.IsName.trimWhile_written (isName : name.IsName) :
    trimWhile isLineQuote name.written = name.shown := by
  cases name with
  | quoted quote text => rfl
  | word text =>
      have none : ∀ c ∈ text, isLineQuote c = false := fun c member =>
        notLineQuote_of_isWord_or (isName.2 c member)
      rw [trimWhile, written,
        dropWhile_eq_self fun c isHead => none c (List.mem_of_mem_head? isHead),
        dropRightWhile_eq_self fun c isLast => none c (List.mem_of_getLast? isLast)]
      rfl

theorem plainMember?_written (isName : name.IsName) (optional : Bool) (type : List Char) :
    plainMember? (name.written ++ (((if optional then ['?'] else []) ++ [':']) ++ type)) =
      some { name := name.shown, optional := optional, type := type } := by
  have stop : ∀ c ∈ (((if optional then ['?'] else []) ++ [':']) ++ type).head?,
      continuesName c = false := by
    cases optional <;> (rintro c ⟨⟩; rfl)
  have colon : trimLeft (':' :: type) = ':' :: type := dropWhile_eq_self (by simp; rfl)
  have mark : trimLeft ('?' :: ':' :: type) = '?' :: ':' :: type :=
    dropWhile_eq_self (by simp; rfl)
  simp only [plainMember?, isName.name?_append stop, Option.bind_eq_bind, Option.bind_some]
  cases optional
  · simp only [Bool.false_eq_true, if_false, List.nil_append, List.cons_append, colon]
    simp [startsType, isName.trimWhile_written]
  · simp only [if_true, List.cons_append, List.nil_append, mark, colon]
    simp [startsType, isName.trimWhile_written]

theorem Name.IsName.head?_written (isName : name.IsName) :
    ∃ c more, name.written = c :: more ∧ isBlank c = false ∧ c ≠ '[' := by
  cases name with
  | word text =>
      cases text with
      | nil => cases isName.1
      | cons c more =>
          refine ⟨c, more, rfl, ?_⟩
          rcases isName.2 c List.mem_cons_self with word | rfl
          · refine ⟨isBlank_of_isWord word, ?_⟩
            rintro rfl
            cases word
          · decide
  | quoted quote text =>
      have isQuote : quote = '"' ∨ quote = '\'' := by simpa [isLineQuote] using isName.1
      refine ⟨quote, text ++ [quote], rfl, ?_⟩
      rcases isQuote with rfl | rfl <;> decide

/-- In front of a name a `readonly` is seen only where it is written. -/
theorem afterReadonly?_written (isName : name.IsName)
    (stop : ∀ c ∈ rest.head?, continuesName c = false ∧ isBlank c = false) :
    afterReadonly? (name.written ++ rest) = none := by
  have allWord : ∀ c ∈ "readonly".toList, continuesName c := List.all_eq_true.mp (by decide)
  have ne_nil : "readonly".toList ≠ [] := by decide
  unfold afterReadonly?
  generalize "readonly".toList = keyword at allWord ne_nil
  split
  case h_2 => rfl
  case h_1 after isAfter =>
    have divided : name.written ++ rest = keyword ++ after := after?_eq_some.mp isAfter
    rw [if_neg]
    intro blank
    have behind : ∀ c ∈ after.head?, continuesName c = false := by
      intro c isHead
      rw [show after.head? = some c from isHead] at blank
      exact continuesName_of_isBlank (by simpa using blank)
    -- Up to the blank the text is one word, and it is the name up to its end.
    obtain ⟨taken, dropped⟩ := takeWhile_append_stop allWord behind
    rw [← divided] at taken dropped
    cases name with
    | word text =>
        have all : ∀ c ∈ text, continuesName c := by
          intro c member
          simpa [continuesName] using isName.2 c member
        have same := (takeWhile_append_stop all fun c isHead => (stop c isHead).1).2
        rw [Name.written, same] at dropped
        subst dropped
        cases head : rest.head? with
        | none => rw [head] at blank; cases blank
        | some c =>
            rw [head, Option.any_some, (stop c head).2] at blank
            cases blank
    | quoted quote text =>
        have noWord : continuesName quote = false := by
          have isQuote : quote = '"' ∨ quote = '\'' := by simpa [isLineQuote] using isName.1
          rcases isQuote with rfl | rfl <;> rfl
        rw [Name.written, List.cons_append, List.cons_append, List.takeWhile_cons, noWord] at taken
        exact ne_nil taken.symm

/-- The first line of a member is read as one. -/
theorem member?_lead (isName : signature.name.IsName) (type : List Char) :
    member? (signature.lead ++ type) =
      some { name := signature.name.shown, optional := signature.optional, type := type } := by
  have plain := plainMember?_written isName signature.optional type
  have stop : ∀ c ∈ (((if signature.optional then ['?'] else []) ++ [':']) ++ type).head?,
      continuesName c = false ∧ isBlank c = false := by
    split <;> (rintro c ⟨⟩; decide)
  rw [Signature.lead_append, member?]
  split
  case isFalse =>
    rw [List.nil_append, afterReadonly?_written isName stop, plain]
    rfl
  case isTrue =>
    obtain ⟨c, more, written, word, _⟩ := isName.head?_written
    have divided (text : List Char) :
        "readonly ".toList ++ text = "readonly".toList ++ ' ' :: text := by
      have keyword : "readonly ".toList = "readonly".toList ++ [' '] := by decide
      rw [keyword, List.append_assoc, List.singleton_append]
    have trimmed (behind : List Char) :
        trimLeft (' ' :: (signature.name.written ++ behind)) = signature.name.written ++ behind :=
      trimLeft_cons rfl (by simp [written, word])
    rw [divided, afterReadonly?, after?_append]
    simp only [List.head?_cons, Option.any_some, show isBlank ' ' = true from rfl, if_true, trimmed,
      Option.bind_some, plain, Option.some_or]

theorem head?_lead (isName : signature.name.IsName) :
    ∃ c more, signature.lead = c :: more ∧ isBlank c = false ∧ c ≠ '[' := by
  obtain ⟨c, more, written, isStart⟩ := isName.head?_written
  rw [Signature.lead, written]
  split
  · exact ⟨'r', _, rfl, by decide⟩
  · exact ⟨c, _, rfl, isStart⟩

theorem trim_line (written : signature.IsWritten) :
    trim (signature.before ++ signature.line) = signature.lead ++ trimRight signature.first := by
  obtain ⟨c, more, isLead, word, _⟩ := head?_lead written.name
  have left : trimLeft (signature.before ++ signature.line) = signature.line := by
    rw [trimLeft, dropWhile_append_of_all written.before.isAllBlank]
    exact dropWhile_eq_self (by simp [Signature.line, isLead, word])
  obtain ⟨front, ends⟩ : ∃ front, signature.lead = front ++ [':'] :=
    ⟨_, by rw [Signature.lead, ← List.append_assoc, ← List.append_assoc]⟩
  rw [trim, left, Signature.line, ends, List.append_assoc, List.append_assoc,
    List.singleton_append, List.singleton_append, trimRight_append_cons rfl]

end

/-!
Reading goes along the segments of a body.  At the start of a member no comment waits and
the line of the member before it has ended.
-/

/-- The reading of what stands behind the given character. -/
def readingFrom (reading : Reading) (previous : Option Char) (text : List Char) : Reading :=
  ((segmentsFrom memberSeparation previous text).map Piece.of).foldl Reading.take reading

def Ending.separator : Ending → Char
  | .semicolon => ';'
  | .comma => ','
  | .lineBreak => '\n'

def Draft.endedBy (draft : Draft) (separator : Char) : Draft :=
  { draft with separator := some separator, openLine := staysOnLine (some separator) }

section

variable {reading : Reading} {previous : Option Char} {text rest line : List Char}
  {separator : Char} {draft : Draft} {drafts : List Draft} {more : List (List Char)}

theorem divides_separator (isSeparator : separator ∈ [',', ';', '\n']) :
    Divides memberSeparation separator := by
  simp only [List.mem_cons, List.not_mem_nil, or_false] at isSeparator
  rcases isSeparator with rfl | rfl | rfl <;> decide

theorem readingFrom_append (whole : IsWhole memberSeparation previous text)
    (isSeparator : separator ∈ [',', ';', '\n']) (rest : List Char) :
    readingFrom reading previous (text ++ separator :: rest) =
      readingFrom (reading.take (Piece.of { text := text, separator := some separator }))
        (some separator) rest := by
  rw [readingFrom, segmentsFrom_append whole (divides_separator isSeparator)]
  rfl

theorem isWhole_nil : IsWhole memberSeparation previous [] :=
  Closes.isWhole (.of_not_mem List.not_mem_nil) (.nil previous)

theorem readingFrom_nil : readingFrom reading previous [] = reading := by
  rw [readingFrom, segmentsFrom_eq isWhole_nil]
  rfl

/-- A line break right behind a separator ends the line of the latest member. -/
theorem readingFrom_lineBreak :
    readingFrom { drafts := draft :: drafts } previous ('\n' :: rest) =
      readingFrom { drafts := { draft with openLine := false } :: drafts } (some '\n') rest := by
  rw [← List.nil_append ('\n' :: rest), readingFrom_append isWhole_nil (by decide),
    Piece.of_markFree (.of_not_mem List.not_mem_nil)]
  rfl

theorem readingFrom_ending (ending : Ending)
    (takes : reading.take (Piece.of { text := line, separator := some ending.separator }) =
      { drafts := draft.endedBy ending.separator :: drafts })
    (whole : IsWhole memberSeparation previous line) :
    readingFrom reading previous (line ++ (ending.text ++ rest)) =
      readingFrom { drafts := { draft.endedBy ending.separator with openLine := false } :: drafts }
        (some '\n') rest := by
  cases ending
  · exact (readingFrom_append whole (by decide) ('\n' :: rest)).trans
      ((congrArg (readingFrom · _ _) takes).trans readingFrom_lineBreak)
  · exact (readingFrom_append whole (by decide) ('\n' :: rest)).trans
      ((congrArg (readingFrom · _ _) takes).trans readingFrom_lineBreak)
  · exact (readingFrom_append whole (by decide) rest).trans (congrArg (readingFrom · _ _) takes)

theorem take_member {piece : Piece} {member : Member} {c : Char}
    (code : piece.code = c :: text) (notIndex : c ≠ '[')
    (isMember : member? piece.code = some member) :
    reading.take piece = reading.add member piece := by
  unfold Reading.take
  split
  case h_1 none => rw [code] at none; cases none
  case h_2 isIndex => rw [code] at isIndex; cases isIndex; exact absurd rfl notIndex
  case h_3 => simp only [isMember]

/-- A line that starts with a bar or an ampersand continues the type. -/
theorem take_continuation (markFree : MarkFree line)
    (starts : (trimLeft line).head?.any fun c => c = '|' || c = '&') :
    ({ drafts := draft :: drafts } : Reading).take
        (Piece.of { text := line, separator := some separator }) =
      { drafts :=
          Draft.endedBy
            { draft with type := draft.type ++ draft.separator.toList ++ trim line } separator ::
            drafts } := by
  rw [← head?_trim] at starts
  rw [Piece.of_markFree markFree]
  cases code : trim line with
  | nil => rw [code] at starts; cases starts
  | cons c more =>
      have isMark : c = '|' ∨ c = '&' := by simpa [code] using starts
      rcases isMark with rfl | rfl <;> rfl

/-- The lines of a type are read into one member. -/
theorem readingFrom_type (ending : Ending)
    (takes : ∀ separator, reading.take (Piece.of { text := line, separator := some separator }) =
      { drafts := draft.endedBy separator :: drafts })
    (whole : IsWhole memberSeparation previous line)
    (isMore : ∀ next ∈ more, (Closes 0 0 none next ∧ MarkFree next) ∧
      (trimLeft next).head?.any fun c => c = '|' || c = '&') :
    readingFrom reading previous
        (line ++ (more.flatMap ('\n' :: ·) ++ (ending.text ++ rest))) =
      readingFrom
        { drafts :=
            { draft with
              type := draft.type ++ more.flatMap fun next => '\n' :: trim next
              separator := some ending.separator
              openLine := false } :: drafts } (some '\n') rest := by
  induction more generalizing reading previous line draft with
  | nil =>
      rw [List.flatMap_nil, List.nil_append, readingFrom_ending ending (takes _) whole,
        List.flatMap_nil, List.append_nil]
      rfl
  | cons next more ih =>
      rw [List.forall_mem_cons] at isMore
      obtain ⟨⟨⟨closes, markFree⟩, starts⟩, isMore⟩ := isMore
      have nextWhole : IsWhole memberSeparation (some '\n') next :=
        (closes.restart (some '\n') rfl (by simp)).isWhole markFree
      rw [List.flatMap_cons, List.cons_append, List.cons_append, List.append_assoc,
        readingFrom_append whole (by decide), takes,
        ih (fun separator => take_continuation markFree starts) nextWhole isMore]
      simp [Draft.endedBy]

end

/-- What is read of a member. -/
def Signature.draft (signature : Signature) : Draft :=
  { name := signature.name.shown
    optional := signature.optional
    type := trimRight signature.first ++ signature.more.flatMap fun line => '\n' :: trim line
    separator := some signature.ending.separator
    description := signature.doc.bind fun doc => commentText doc.comment
    openLine := false }

section

variable {signature : Signature} {drafts : List Draft} {previous : Option Char}
  {rest : List Char} {waiting : Option (List Char)}

theorem take_line (written : signature.IsWritten) (separator : Char) :
    ({ drafts := drafts, waiting := waiting } : Reading).take
        (Piece.of { text := signature.before ++ signature.line, separator := some separator }) =
      { drafts :=
          Draft.endedBy
            { name := signature.name.shown
              optional := signature.optional
              type := trimRight signature.first
              separator := none
              description := waiting
              openLine := false } separator :: drafts } := by
  have isMember := member?_lead written.name (trimRight signature.first)
  obtain ⟨c, more, isLead, _, notIndex⟩ := head?_lead written.name
  rw [Piece.of_markFree written.markFree_line, trim_line written]
  rw [isLead, List.cons_append] at isMember ⊢
  rw [take_member rfl notIndex isMember]
  rfl

theorem readingFrom_line (written : signature.IsWritten) :
    readingFrom { drafts := drafts, waiting := waiting } previous
        (signature.before ++ (signature.line ++ (signature.more.flatMap ('\n' :: ·) ++
          (signature.ending.text ++ rest)))) =
      readingFrom { drafts := { signature.draft with description := waiting } :: drafts }
        (some '\n') rest := by
  have whole : IsWhole memberSeparation previous (signature.before ++ signature.line) :=
    (written.closes_line previous).isWhole written.markFree_line
  have isMore : ∀ next ∈ signature.more, (Closes 0 0 none next ∧ MarkFree next) ∧
      (trimLeft next).head?.any fun c => c = '|' || c = '&' := fun next member =>
    ⟨⟨(written.more next member).1, written.markFree_more next member⟩,
      (written.more next member).2⟩
  rw [← List.append_assoc, readingFrom_type signature.ending (take_line written) whole isMore]
  rfl

theorem Doc.IsWritten.isWhole {doc : Doc} (written : doc.IsWritten) :
    IsWhole memberSeparation previous doc.text := by
  have noSlash : '/' ∉ doc.before := fun member =>
    absurd (written.before.isNeutral _ member) (by decide)
  have closes : Closes 0 0 previous doc.before := .of_neutral written.before.isNeutral
  have lexed := closes.isLexed (.of_not_mem noSlash)
  obtain ⟨last, through⟩ := closes.through (.of_not_mem noSlash)
  have comment := @lexemes_blockComment ('*' :: doc.inside) [] written.unended
  refine ⟨(written.isGap.isBody (by simp) : IsBody [] _).isLexed, doc.comment.getLast?, ?_⟩
  rw [Doc.text, lexed.lexemes_append fun ends =>
      absurd (List.mem_of_getLast? ends.getLast?) noSlash, Nesting.through_append through,
    Doc.comment, comment, lexemes_nil, Nesting.through_cons rfl]
  rfl

/-- Once the line of the latest member has ended, a comment on a line of its own waits for
the next one. -/
theorem readingFrom_doc {doc : Doc} (written : doc.IsWritten)
    (lineEnded : ∀ draft ∈ drafts.head?, draft.openLine = false) :
    readingFrom { drafts := drafts } previous (doc.text ++ '\n' :: rest) =
      readingFrom { drafts := drafts, waiting := commentText doc.comment } (some '\n') rest := by
  have waits : ({ drafts := drafts } : Reading).take (Piece.of
      { text := doc.text, separator := some '\n' }) =
      { drafts := drafts, waiting := commentText doc.comment } := by
    rw [Piece.of_doc written]
    cases drafts with
    | nil => cases commentText doc.comment <;> rfl
    | cons draft drafts =>
        have ended : draft.openLine = false := lineEnded draft rfl
        have same : { draft with openLine := false } = draft := by rw [← ended]
        cases commentText doc.comment <;>
          simp [Reading.take, Reading.takeComment, Reading.endLine, staysOnLine, ended, same]
  rw [readingFrom_append written.isWhole (by decide), waits]

/-- A member is read to its end, with the comment in front of it. -/
theorem readingFrom_signature (written : signature.IsWritten)
    (lineEnded : ∀ draft ∈ drafts.head?, draft.openLine = false) :
    readingFrom { drafts := drafts } previous (signature.text ++ rest) =
      readingFrom { drafts := signature.draft :: drafts } (some '\n') rest := by
  rw [Signature.text]
  cases isDoc : signature.doc with
  | none =>
      have same : { signature.draft with description := none } = signature.draft := by
        simp [Signature.draft, isDoc]
      simp only [Option.elim_none, List.nil_append, List.append_assoc]
      rw [readingFrom_line written, same]
  | some doc =>
      have same : { signature.draft with description := commentText doc.comment } =
          signature.draft := by
        simp [Signature.draft, isDoc]
      simp only [Option.elim_some, List.append_assoc, List.cons_append, List.nil_append]
      rw [readingFrom_doc (written.doc doc isDoc) lineEnded, readingFrom_line written, same]

end

/-!
The type that was put together from its lines is shown like the type that was written.
-/

section

variable {brackets lists : Nat} {previous : Option Char} {text : List Char}
  {signature : Signature}

theorem words_trimRight (text : List Char) : words (trimRight text) = words text := by
  obtain ⟨after, blank, divided⟩ := exists_trimRight text
  conv_rhs => rw [divided, words_append_of_isAllBlank blank]

theorem words_flatMap_lines (text : List Char) (more : List (List Char)) :
    words (text ++ more.flatMap ('\n' :: ·)) = words text ++ more.flatMap words := by
  induction more generalizing text with
  | nil => simp
  | cons line more ih =>
      rw [List.flatMap_cons, List.cons_append, words_append_blank rfl, ih line, List.flatMap_cons]

theorem collapse_draft (signature : Signature) :
    collapse signature.draft.type = collapse signature.type := by
  have lines : signature.more.flatMap (fun line => '\n' :: trim line) =
      (signature.more.map trim).flatMap ('\n' :: ·) := by
    rw [List.flatMap_map]
  rw [collapse, collapse, Signature.draft, Signature.type, lines, words_flatMap_lines,
    words_flatMap_lines, words_trimRight, List.flatMap_map]
  simp only [words_trim]

/-- The last character that is no blank, if there is one, is the first character or
stands behind it. -/
theorem getLast?_trimRight_cons {holds : Char → Prop} {c : Char}
    (own : isAllBlank text → isBlank c = false → holds c)
    (later : ∀ d ∈ (trimRight text).getLast?, holds d) :
    ∀ d ∈ (trimRight (c :: text)).getLast?, holds d := by
  rw [trimRight, dropRightWhile_cons]
  split
  case isTrue allBlank =>
    cases blank : isBlank c with
    | true => simp [dropRightWhile, blank]
    | false => simpa [dropRightWhile, blank] using own allBlank blank
  case isFalse notBlank =>
    have ne_nil : trimRight text ≠ [] := by
      rw [Ne, trimRight, dropRightWhile, List.reverse_eq_nil_iff, List.dropWhile_eq_nil_iff]
      simpa using notBlank
    rwa [← trimRight, getLast?_cons_of_ne_nil c ne_nil]

theorem not_separator_of_mark {c : Char} (mark : isOrdinary c = false) : c ≠ ',' ∧ c ≠ ';' := by
  constructor <;> (rintro rfl; cases mark)

/-- While something is open there is a character that is no blank, and the last one of
them is no separator. -/
theorem Closes.getLast? (closes : Closes brackets lists previous text) :
    (isAllBlank text → brackets = 0 ∧ lists = 0) ∧
      ∀ c ∈ (trimRight text).getLast?, c ≠ ',' ∧ c ≠ ';' := by
  have starts : ∀ {c : Char} {rest : List Char}, isBlank c = false → ¬ isAllBlank (c :: rest) := by
    intro c rest word
    simp [isAllBlank, word]
  have atMark : ∀ {c : Char} {rest : List Char}, isOrdinary c = false →
      (∀ d ∈ (trimRight rest).getLast?, d ≠ ',' ∧ d ≠ ';') →
      ∀ d ∈ (trimRight (c :: rest)).getLast?, d ≠ ',' ∧ d ≠ ';' := fun mark later =>
    getLast?_trimRight_cons (fun _ _ => not_separator_of_mark mark) later
  induction closes with
  | nil => exact ⟨fun _ => ⟨rfl, rfl⟩, by simp [trimRight, dropRightWhile]⟩
  | @literal _ _ _ inside rest quote inner _ ih =>
      have mark := isOrdinary_of_isQuote inner.isQuote
      have word := isBlank_of_isOrdinary_eq_false mark
      have ends : trimRight (quote :: inside ++ quote :: rest) =
          quote :: inside ++ trimRight (quote :: rest) := by
        rw [trimRight_append_cons word, ← List.nil_append (quote :: rest),
          trimRight_append_cons word, List.nil_append]
      have ne_nil : trimRight (quote :: rest) ≠ [] := by
        rw [← List.nil_append (quote :: rest), trimRight_append_cons word]
        simp
      refine ⟨fun blank => absurd blank (starts word), ?_⟩
      rw [ends, List.getLast?_append_of_ne_nil _ ne_nil]
      exact atMark mark ih.2
  | opener c isOpener _ ih =>
      have mark := isOrdinary_of_isOpener isOpener
      exact ⟨fun blank => absurd blank (starts (isBlank_of_isOrdinary_eq_false mark)),
        atMark mark ih.2⟩
  | closer c isCloser _ ih =>
      have mark := isOrdinary_of_isCloser isCloser
      exact ⟨fun blank => absurd blank (starts (isBlank_of_isOrdinary_eq_false mark)),
        atMark mark ih.2⟩
  | listOpener led _ ih =>
      exact ⟨fun blank => absurd blank (starts rfl),
        getLast?_trimRight_cons (fun _ _ => by decide) ih.2⟩
  | listCloser noArrow _ ih =>
      exact ⟨fun blank => absurd blank (starts rfl),
        getLast?_trimRight_cons (fun _ _ => by decide) ih.2⟩
  | @plain _ _ _ rest c isPlain _ _ inside _ ih =>
      refine ⟨fun blank => ?_, getLast?_trimRight_cons (fun blank _ => ?_) ih.2⟩
      · simp only [isAllBlank, List.all_cons, Bool.and_eq_true] at blank
        exact ih.1 blank.2
      · have closed := ih.1 blank
        constructor <;>
          · rintro rfl
            have := inside (by decide)
            omega

theorem not_isAllBlank_of_head? {line : List Char}
    (starts : (trimLeft line).head?.any fun c => c = '|' || c = '&') : ¬ isAllBlank line := by
  intro blank
  have none : trimLeft line = [] := by
    rw [trimLeft, List.dropWhile_eq_nil_iff]
    exact List.all_eq_true.mp blank
  rw [none] at starts
  cases starts

theorem getLast?_trimRight_lines {more : List (List Char)}
    (first : ∀ c ∈ (trimRight text).getLast?, c ≠ ',' ∧ c ≠ ';')
    (isMore : ∀ line ∈ more, Closes 0 0 none line ∧
      (trimLeft line).head?.any fun c => c = '|' || c = '&') :
    ∀ c ∈ (trimRight (text ++ more.flatMap ('\n' :: ·))).getLast?, c ≠ ',' ∧ c ≠ ';' := by
  induction more generalizing text with
  | nil => rwa [List.flatMap_nil, List.append_nil]
  | cons line more ih =>
      rw [List.forall_mem_cons] at isMore
      obtain ⟨⟨closes, starts⟩, isMore⟩ := isMore
      have notBlank := not_isAllBlank_of_head? starts
      have ne_nil : trimRight line ≠ [] := by
        intro none
        have noWords := words_trimRight line
        rw [none] at noWords
        exact notBlank (words_eq_nil_iff.mp noWords.symm)
      have last : ∀ c ∈ (trimRight ((text ++ ['\n']) ++ line)).getLast?, c ≠ ',' ∧ c ≠ ';' := by
        rw [trimRight_append_of_not_blank notBlank, List.getLast?_append_of_ne_nil _ ne_nil]
        exact closes.getLast?.2
      have later := ih last isMore
      simpa using later

/-- On one line a type does not end with a separator. -/
theorem Signature.IsWritten.getLast?_collapse (written : signature.IsWritten) :
    ∀ c ∈ (collapse signature.type).getLast?, c ≠ ',' ∧ c ≠ ';' := by
  rw [Text.getLast?_collapse]
  exact getLast?_trimRight_lines written.first.getLast?.2 written.more

/-- A type that is put together from its lines is shown on one line. -/
theorem shownType_draft (written : signature.IsWritten) :
    shownType signature.draft.type = collapse signature.type := by
  have kept : dropRightWhile (fun c => c = ';' || c = ',') (collapse signature.type) =
      collapse signature.type := by
    refine dropRightWhile_eq_self fun c isLast => ?_
    simp [written.getLast?_collapse c isLast]
  have trimmed := trim_eq_self (isTrimmed_collapse signature.type)
  have ne_nil : collapse signature.type ≠ [] := by
    rw [Ne, collapse_eq_nil_iff]
    exact written.notBlank
  rw [shownType, collapse_draft, trimmed, kept, trimmed, if_neg (by simpa using ne_nil)]

theorem prop_draft (written : signature.IsWritten) : signature.draft.prop = signature.prop := by
  rw [Draft.prop, shownType_draft written]
  rfl

end

theorem readingFrom_signatures {signatures : List Signature} {drafts : List Draft}
    {previous : Option Char} (written : ∀ signature ∈ signatures, signature.IsWritten)
    (lineEnded : ∀ draft ∈ drafts.head?, draft.openLine = false) :
    readingFrom { drafts := drafts } previous (signatures.flatMap Signature.text) =
      { drafts := (signatures.map Signature.draft).reverse ++ drafts } := by
  induction signatures generalizing drafts previous with
  | nil => exact readingFrom_nil
  | cons signature signatures ih =>
      rw [List.forall_mem_cons] at written
      rw [List.flatMap_cons, readingFrom_signature written.1 lineEnded,
        ih written.2 (by rintro draft ⟨⟩; rfl)]
      simp

theorem props_readingFrom {signatures : List Signature} (previous : Option Char)
    (written : ∀ signature ∈ signatures, signature.IsWritten) :
    (readingFrom {} previous (signatures.flatMap Signature.text)).drafts.reverse.map Draft.prop =
      signatures.map Signature.prop := by
  have noLine : ∀ draft ∈ ([] : List Draft).head?, draft.openLine = false := by simp
  rw [readingFrom_signatures written noLine, List.append_nil, List.reverse_reverse, List.map_map]
  exact List.map_congr_left fun signature member => prop_draft (written signature member)

/-- From the members of a props type exactly their props are read, in order, each with its
name, its whole type on one line, whether it is required, and the text of the comment in
front of it. -/
theorem membersOf_of_isWritten {signatures : List Signature}
    (written : ∀ signature ∈ signatures, signature.IsWritten) :
    membersOf (signatures.flatMap Signature.text) = signatures.map Signature.prop :=
  props_readingFrom none written

/-- Outside these conditions types are cut and members are lost: the angle of type
parameters inside brackets closes the list around them, a list behind a blank does not
nest, and a name that starts with a letter above ASCII or has a combining mark is no name. -/
theorem membersOf_unusual :
    (membersOf "a: Pair<\x7b f: <T>(x: T) => void \x7d, Map<K, V>>;\n".toList).map
        (fun prop => (prop.name, prop.type)) =
      [("a", "Pair<\x7b f: <T>(x: T) => void \x7d"), ("Map", "<K, V>>")] ∧
      (membersOf "a: Map <K, V>;\n".toList).map (·.type) = ["Map <K,V>"] ∧
      membersOf "été: string;\n".toList = [] ∧ membersOf "a\u0301: string;\n".toList = [] := by
  decide +kernel

/-- Two members: one with a comment and a type argument list, one with a type on two
lines. -/
def sampleSignatures : List Signature :=
  [{ doc := some { before := [' '], inside := " All of them. ".toList }
     before := [' ']
     isReadonly := true
     name := .word "items".toList
     optional := true
     first := " Map".toList ++ ['<', 'A', ',', 'B', '>']
     more := []
     ending := .semicolon },
    { doc := none
      before := [' ']
      isReadonly := false
      name := .word "kind".toList
      optional := false
      first := []
      more := [" | ".toList ++ ['\'', 'a', '\'']]
      ending := .lineBreak }]

theorem sampleSignatures_isWritten : ∀ signature ∈ sampleSignatures, signature.IsWritten := by
  have arguments : Closes 0 1 (some '<') ['A', ',', 'B', '>'] :=
    .plain 'A' (by decide) (by decide) (by decide) (by decide)
      (.plain ',' (by decide) (by decide) (by decide) (by decide)
        (.plain 'B' (by decide) (by decide) (by decide) (by decide)
          (.listCloser (by decide) (.nil _))))
  have list : Closes 0 0 none (" Map".toList ++ ['<', 'A', ',', 'B', '>']) :=
    .neutral_append (List.all_eq_true.mp (by decide)) (.listOpener (by decide) arguments)
  have union : Closes 0 0 none (" | ".toList ++ ['\'', 'a', '\'']) :=
    .neutral_append (List.all_eq_true.mp (by decide))
      (.literal '\'' (.inl ⟨rfl, .char 'a' (by decide) .nil⟩) (.nil _))
  refine List.forall_mem_cons.mpr ⟨?_, List.forall_mem_singleton.mpr ?_⟩
  · exact
      { doc := by rintro doc ⟨⟩; exact ⟨by decide +kernel, by decide +kernel⟩
        before := by decide +kernel
        name := by decide +kernel
        first := list
        more := by simp
        markFree := by decide +kernel
        notBlank := by decide +kernel }
  · exact
      { doc := by rintro doc ⟨⟩
        before := by decide +kernel
        name := by decide +kernel
        first := .nil _
        more := List.forall_mem_singleton.mpr ⟨union, by decide +kernel⟩
        markFree := by decide +kernel
        notBlank := by decide +kernel }

theorem membersOf_sampleSignatures :
    (∀ signature ∈ sampleSignatures, signature.IsWritten) ∧
      membersOf " /** All of them. */\n readonly items?: Map<A,B>;\n kind:\n | 'a'\n".toList =
        [{ name := "items"
           type := "Map<A,B>"
           required := false
           description := some "All of them." },
          { name := "kind", type := "| 'a'", required := true }] := by
  refine ⟨sampleSignatures_isWritten, ?_⟩
  have text : " /** All of them. */\n readonly items?: Map<A,B>;\n kind:\n | 'a'\n".toList =
      sampleSignatures.flatMap Signature.text := by decide +kernel
  rw [text, membersOf_of_isWritten sampleSignatures_isWritten]
  decide +kernel

end ComponentAtlas.Props
