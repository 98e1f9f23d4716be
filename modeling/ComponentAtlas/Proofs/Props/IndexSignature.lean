/-
Module: ComponentAtlas.Proofs.Props.IndexSignature
Purpose: What an index signature between the members of a body changes.
Main exports:
  IndexSignature, IndexSignature.leaves, IndexSignature.IsWritten.foldl_take,
  membersOf_indexSignature, membersOf_indexSignature_iff
-/
import ComponentAtlas.Proofs.Props.BodyLine

namespace ComponentAtlas.Props

open ComponentAtlas.Text
open ComponentAtlas.Source

/-- A line that holds an index signature, with the line above it. -/
structure IndexSignature where
  /-- Blanks and comments on the line above. -/
  doc : Option (List Char)
  indent : List Char
  /-- The word and the blanks behind it, where it is read-only. -/
  gap : Option (List Char)
  /-- The name and the type of the key. -/
  key : List Char
  value : List Char
deriving Repr, DecidableEq

namespace IndexSignature

def lead (sign : IndexSignature) : List Char :=
  sign.gap.elim [] fun gap => "readonly".toList ++ gap

/-- The signature up to its semicolon. -/
def code (sign : IndexSignature) : List Char :=
  sign.indent ++ sign.lead ++ '[' :: (sign.key ++ ']' :: ':' :: sign.value)

def segments (sign : IndexSignature) : List Segment :=
  sign.doc.toList.map (⟨·, some '\n'⟩) ++ [⟨sign.code, some ';'⟩, ⟨[], some '\n'⟩]

/-- The lines as they are written, with their line breaks. -/
def text (sign : IndexSignature) : List Char :=
  sign.doc.elim [] (· ++ ['\n']) ++ sign.code ++ [';', '\n']

/-- What the comment on the line above says. -/
def words (sign : IndexSignature) : Option (List Char) := sign.doc.bind wordsOf

structure IsWritten (sign : IndexSignature) : Prop where
  doc : ∀ text ∈ sign.doc, IsNote text
  indent : IsIndent sign.indent
  gap : ∀ gap ∈ sign.gap, gap ≠ [] ∧ IsIndent gap
  whole : IsWhole memberSeparation none sign.code

end IndexSignature

section

variable {sign : IndexSignature}

theorem IndexSignature.flatMap_whole_segments (sign : IndexSignature) :
    sign.segments.flatMap Segment.whole = sign.text := by
  obtain ⟨doc, indent, gap, key, value⟩ := sign
  cases doc <;> simp [segments, Segment.whole, IndexSignature.text]

theorem IndexSignature.IsWritten.isPiece (written : sign.IsWritten) :
    ∀ piece ∈ sign.segments, IsPiece piece := by
  intro piece member
  simp only [segments, List.mem_append, List.mem_map, Option.mem_toList, List.mem_cons,
    List.not_mem_nil, or_false] at member
  rcases member with ⟨text, isDoc, rfl⟩ | rfl | rfl
  · exact ⟨(written.doc text isDoc).whole, '\n', by simp, rfl⟩
  · exact ⟨written.whole, ';', by simp, rfl⟩
  · exact ⟨isWhole_nil, '\n', by simp, rfl⟩

/-- No literal and no comment begins in front of the bracket. -/
theorem withoutComments_of_isSingle {lead : List Char} (single : ∀ c ∈ lead, IsSingle c)
    (rest : List Char) : withoutComments (lead ++ rest) = lead ++ withoutComments rest := by
  induction lead with
  | nil => rfl
  | cons c lead ih =>
      rw [List.forall_mem_cons] at single
      rw [List.cons_append, withoutComments_single single.1, ih single.2, List.cons_append]

theorem IsIndent.isSingle {indent : List Char} (isIndent : IsIndent indent) :
    ∀ c ∈ indent, IsSingle c := fun c member =>
  isSingle_of_isOrdinary (isOrdinary_of_isBlank (isIndent c member).1)

theorem IndexSignature.IsWritten.isSingle_lead (written : sign.IsWritten) :
    ∀ c ∈ sign.lead, IsSingle c := by
  have keyword : "readonly".toList.all isOrdinary := by decide
  intro c member
  cases isGap : sign.gap with
  | none => simp [IndexSignature.lead, isGap] at member
  | some gap =>
      rw [IndexSignature.lead, isGap, Option.elim_some, List.mem_append] at member
      rcases member with inWord | inGap
      · exact isSingle_of_isOrdinary (List.all_eq_true.mp keyword c inWord)
      · exact (written.gap gap isGap).2.isSingle c inGap

theorem IndexSignature.head?_lead (sign : IndexSignature) (rest : List Char) :
    ∀ c ∈ (sign.lead ++ '[' :: rest).head?, isBlank c = false := by
  have keyword : "readonly".toList.head? = some 'r' := by decide
  cases isGap : sign.gap with
  | none =>
      rw [IndexSignature.lead, isGap]
      rintro c ⟨⟩
      rfl
  | some gap =>
      rw [IndexSignature.lead, isGap, Option.elim_some, List.append_assoc, List.head?_append,
        keyword]
      rintro c ⟨⟩
      rfl

/-- The code of the piece begins with the word, if it is there, and the bracket. -/
theorem IndexSignature.IsWritten.code_of (written : sign.IsWritten) (separator : Option Char) :
    ∃ more, (Piece.of { text := sign.code, separator := separator }).code =
      sign.lead ++ '[' :: more := by
  have single : ∀ c ∈ sign.indent ++ sign.lead ++ ['['], IsSingle c := by
    simp only [List.mem_append, List.mem_singleton]
    rintro c ((inIndent | inLead) | rfl)
    · exact written.indent.isSingle c inIndent
    · exact written.isSingle_lead c inLead
    · exact isSingle_of_isOpener rfl
  have isCode : sign.code =
      (sign.indent ++ sign.lead ++ ['[']) ++ (sign.key ++ ']' :: ':' :: sign.value) := by
    simp [IndexSignature.code]
  have left (rest : List Char) : trimLeft (sign.lead ++ '[' :: rest) = sign.lead ++ '[' :: rest :=
    dropWhile_eq_self (sign.head?_lead rest)
  refine ⟨trimRight (withoutComments (sign.key ++ ']' :: ':' :: sign.value)), ?_⟩
  rw [Piece.of, isCode, withoutComments_of_isSingle single]
  simp only [List.append_assoc, List.singleton_append]
  rw [trim_append_of_isAllBlank written.indent.isAllBlank, trim, left,
    trimRight_append_cons rfl]

end

/-!
The index signature: it is passed over, or goes on with the type of the member before it.
-/

/-- The type goes on with this code, behind the separator that ended it. -/
def Draft.continuedBy (draft : Draft) (code : List Char) : Draft :=
  { draft with
    type := draft.type ++ draft.separator.toList ++ code
    separator := some ';'
    openLine := false }

namespace IndexSignature

/-- What the signature leaves of the members before it. -/
def leaves (sign : IndexSignature) (drafts : List Draft) : List Draft :=
  match sign.gap, drafts with
  | some _, latest :: rest =>
      latest.continuedBy (Piece.of { text := sign.code, separator := some ';' }).code :: rest
  | _, drafts => drafts

end IndexSignature

section

variable {reading : Reading} {sign : IndexSignature} {drafts : List Draft} {piece : Piece}
  {gap more text : List Char} {c : Char}

theorem Reading.take_of_bracket (isIndex : piece.code = '[' :: more) (reading : Reading) :
    reading.take piece = reading := by
  simp only [take, isIndex]

theorem IsIndent.trimLeft_append (indent : IsIndent gap) (more : List Char) :
    trimLeft (gap ++ '[' :: more) = '[' :: more := by
  rw [trimLeft, dropWhile_append_of_all indent.isAllBlank]
  rfl

theorem plainMember?_readonly (isGap : gap ≠ []) (indent : IsIndent gap) :
    plainMember? ("readonly".toList ++ gap ++ '[' :: more) = none := by
  have allWord : ∀ c ∈ "eadonly".toList, continuesName c := List.all_eq_true.mp (by decide)
  have keyword : "readonly".toList = 'r' :: "eadonly".toList := by decide
  have stop : ∀ c ∈ (gap ++ '[' :: more).head?, continuesName c = false := by
    cases gap with
    | nil => exact absurd rfl isGap
    | cons c gap =>
        rintro d ⟨⟩
        exact continuesName_of_isBlank (indent c List.mem_cons_self).1
  obtain ⟨taken, dropped⟩ := takeWhile_append_stop allWord stop
  have name : name? ("readonly".toList ++ gap ++ '[' :: more) =
      some ("readonly".toList, gap ++ '[' :: more) := by
    rw [keyword, List.append_assoc, List.cons_append]
    unfold name?
    simp only [taken, dropped]
    rfl
  simp only [plainMember?, name, Option.bind_eq_bind, Option.bind_some, indent.trimLeft_append]
  rfl

theorem member?_readonly (isGap : gap ≠ []) (indent : IsIndent gap) :
    member? ("readonly".toList ++ gap ++ '[' :: more) = none := by
  have isBlank : (gap ++ '[' :: more).head?.any isBlank := by
    cases gap with
    | nil => exact absurd rfl isGap
    | cons c gap => exact (indent c List.mem_cons_self).1
  have behind : afterReadonly? ("readonly".toList ++ gap ++ '[' :: more) = some ('[' :: more) := by
    rw [List.append_assoc, afterReadonly?, after?_append]
    simp only [isBlank, if_true, indent.trimLeft_append]
  rw [member?, behind, plainMember?_readonly isGap indent]
  rfl

theorem Reading.take_of_readonly {more : List Char} (isGap : gap ≠ []) (indent : IsIndent gap)
    (isCode : piece.code = "readonly".toList ++ gap ++ '[' :: more) (reading : Reading) :
    reading.take piece = reading.continueType piece := by
  have noMember : member? piece.code = none := by rw [isCode, member?_readonly isGap indent]
  have keyword : "readonly".toList = 'r' :: "eadonly".toList := by decide
  unfold take
  split
  case h_1 noCode => simp [isCode, keyword] at noCode
  case h_2 isIndex => simp [isCode, keyword] at isIndex
  case h_3 => simp only [noMember]

theorem IndexSignature.IsWritten.take_code (written : sign.IsWritten) (reading : Reading) :
    (reading.take (Piece.of { text := sign.code, separator := some ';' })).endLine (some '\n') =
      ({ reading with drafts := sign.leaves reading.drafts } : Reading).endLine (some '\n') := by
  obtain ⟨more, isCode⟩ := written.code_of (some ';')
  cases isGap : sign.gap with
  | none =>
      rw [IndexSignature.lead, isGap, Option.elim_none, List.nil_append] at isCode
      rw [Reading.take_of_bracket isCode]
      simp only [leaves, isGap]
  | some gap =>
      obtain ⟨ne_nil, indent⟩ := written.gap gap isGap
      rw [IndexSignature.lead, isGap, Option.elim_some] at isCode
      -- The bracket is not the first character, so the signature is not passed over.
      rw [Reading.take_of_readonly ne_nil indent isCode]
      obtain ⟨_ | ⟨latest, rest⟩, waits⟩ := reading
      · simp only [leaves, isGap]
        rfl
      · simp only [leaves, isGap]
        rfl

theorem LineEnded.leaves (ended : LineEnded drafts) (sign : IndexSignature) :
    LineEnded (sign.leaves drafts) := by
  unfold IndexSignature.leaves
  split
  · rintro draft ⟨⟩
    rfl
  · exact ended

/-- The signature is read with the line above it. -/
theorem IndexSignature.IsWritten.foldl_take (written : sign.IsWritten)
    (ended : LineEnded reading.drafts) :
    (sign.segments.map Piece.of).foldl Reading.take reading =
      { drafts := sign.leaves reading.drafts, waiting := sign.words.or reading.waiting } := by
  have above : ((sign.doc.toList.map fun text => (⟨text, some '\n'⟩ : Segment)).map Piece.of).foldl
      Reading.take reading = { reading with waiting := sign.words.or reading.waiting } := by
    cases isDoc : sign.doc with
    | none =>
        simp only [words, isDoc]
        rfl
    | some text =>
        simp only [words, isDoc]
        exact Reading.take_note (written.doc text isDoc) ended
  rw [segments, List.map_append, List.foldl_append, above]
  have lineBreak (between : Reading) :
      between.take (Piece.of { text := [], separator := some '\n' }) =
        between.endLine (some '\n') := by
    rw [isNote_nil.piece_of, Reading.take_of_noCode rfl]
    rfl
  simp only [List.map_cons, List.map_nil, List.foldl_cons, List.foldl_nil, lineBreak,
    written.take_code]
  exact Reading.endLine_of_lineEnded (ended.leaves sign) _

/-- A character that is not dropped is not lost. -/
theorem count_dropRightWhile {p : Char → Bool} (keeps : p c = false) (text : List Char) :
    (dropRightWhile p text).count c = text.count c := by
  have divided : text = dropRightWhile p text ++ text.rtakeWhile p :=
    List.rdropWhile_append_rtakeWhile.symm
  have none : (text.rtakeWhile p).count c = 0 := List.count_eq_zero.mpr fun member => by
    rw [List.mem_rtakeWhile_imp member] at keeps
    cases keeps
  conv_rhs => rw [divided, List.count_append, none, Nat.add_zero]

theorem count_trim (word : isBlank c = false) (text : List Char) :
    (trim text).count c = text.count c := by
  rw [← count_collapse word (trim text), collapse_trim, count_collapse word]

theorem count_shownType (type : List Char) : (shownType type).count '[' = type.count '[' := by
  have same : (trim (dropRightWhile (fun c => c = ';' || c = ',') (trim (collapse type)))).count '[' =
      type.count '[' := by
    rw [count_trim rfl, count_dropRightWhile rfl, count_trim rfl, count_collapse rfl]
  unfold shownType
  dsimp only
  split
  case isFalse => exact same
  case isTrue isEmpty =>
    rw [List.isEmpty_iff.mp isEmpty] at same
    exact same

/-- The type that goes on with an index signature has a bracket more. -/
theorem prop_continuedBy_ne (draft : Draft) {code : List Char} (bracket : '[' ∈ code) :
    (draft.continuedBy code).prop ≠ draft.prop := by
  intro same
  have sameShown := congrArg PropDecl.type same
  simp only [Draft.prop, String.ofList_inj] at sameShown
  have counts := congrArg (List.count '[') sameShown
  rw [count_shownType, count_shownType, Draft.continuedBy, List.count_append,
    List.count_append] at counts
  have positive := List.count_pos_iff.mpr bracket
  omega

theorem IndexSignature.IsWritten.bracket_mem (written : sign.IsWritten) :
    '[' ∈ (Piece.of { text := sign.code, separator := some ';' }).code := by
  obtain ⟨more, isCode⟩ := written.code_of (some ';')
  simp [isCode]

theorem IndexSignature.length_leaves (sign : IndexSignature) (drafts : List Draft) :
    (sign.leaves drafts).length = drafts.length := by
  unfold leaves
  split <;> rfl

theorem IndexSignature.names_leaves (sign : IndexSignature) (drafts : List Draft) :
    ((sign.leaves drafts).reverse.map Draft.prop).map (fun prop => (prop.name, prop.required)) =
      (drafts.reverse.map Draft.prop).map fun prop => (prop.name, prop.required) := by
  unfold leaves
  split
  · simp [Draft.continuedBy, Draft.prop]
  · rfl

/-- The props before the signature stay what they are, unless a read-only one stands behind
a member. -/
theorem IndexSignature.IsWritten.props_leaves_iff (written : sign.IsWritten)
    (drafts : List Draft) :
    (sign.leaves drafts).reverse.map Draft.prop = drafts.reverse.map Draft.prop ↔
      (sign.gap.isSome → drafts = []) := by
  cases isGap : sign.gap with
  | none => simp [leaves, isGap]
  | some gap =>
      cases drafts with
      | nil => simp [leaves, isGap]
      | cons latest rest =>
          have differs := prop_continuedBy_ne latest written.bracket_mem
          simpa [leaves, isGap] using differs

end

/-!
The body with the signature in it.
-/

section

variable {before after : List BodyLine} {sign : IndexSignature}

theorem membersOf_indexSignature (isBefore : ∀ line ∈ before, line.IsWritten)
    (isAfter : ∀ line ∈ after, line.IsWritten) (isSign : sign.IsWritten) :
    membersOf (bodyText before ++ sign.text ++ bodyText after) =
      (sign.leaves (readLines none before).drafts).reverse.map Draft.prop ++
        (readLines (sign.words.or (readLines none before).waiting) after).props := by
  have arePieces : ∀ piece ∈ before.flatMap BodyLine.segments ++ sign.segments ++
      after.flatMap BodyLine.segments, IsPiece piece := by
    simp only [List.forall_mem_append]
    exact ⟨⟨isPiece_of_isWritten isBefore, isSign.isPiece⟩, isPiece_of_isWritten isAfter⟩
  have read := membersOf_of_isPiece arePieces
  have ended := @lineEnded_readLines none before isBefore
  simp only [List.flatMap_append, flatMap_whole_lines, IndexSignature.flatMap_whole_segments,
    List.map_append, List.foldl_append] at read
  have signed := isSign.foldl_take ended
  rw [readLines] at signed
  rw [read, signed]
  exact (congrArg Reading.props (foldl_take_lines isAfter (ended.leaves sign))).trans
    (Reading.props_atop _ _)

end

/-- An index signature on a line of its own adds no prop and changes no name.  It changes
nothing else exactly when it is not read-only, or no member stands before it, and the comment
above it displaces none of those that describe the members behind it. -/
theorem membersOf_indexSignature_iff {before after : List BodyLine} {sign : IndexSignature}
    (isBefore : ∀ line ∈ before, line.IsWritten) (isAfter : ∀ line ∈ after, line.IsWritten)
    (isSign : sign.IsWritten) :
    (membersOf (bodyText before ++ sign.text ++ bodyText after)).map
        (fun prop => (prop.name, prop.required)) =
      (membersOf (bodyText before ++ bodyText after)).map
        (fun prop => (prop.name, prop.required)) ∧
    (membersOf (bodyText before ++ sign.text ++ bodyText after) =
        membersOf (bodyText before ++ bodyText after) ↔
      (sign.gap.isSome → ∀ line ∈ before, line.isMember = false) ∧
      ∀ words ∈ sign.words, displaces (readLines none before).waiting words after = false) := by
  rw [membersOf_indexSignature isBefore isAfter isSign, membersOf_bodyText isBefore isAfter]
  constructor
  · have behind := congrArg (List.map fun shown : String × String × Bool => (shown.1, shown.2.2))
      (map_props_readLines isAfter (sign.words.or (readLines none before).waiting)
        (readLines none before).waiting)
    rw [List.map_map, List.map_map] at behind
    rw [List.map_append, List.map_append]
    exact congrArg₂ (· ++ ·) (sign.names_leaves _) behind
  · have sameLength : ((sign.leaves (readLines none before).drafts).reverse.map Draft.prop).length =
        (readLines none before).props.length := by
      simp [Reading.props, sign.length_leaves]
    have divided : ∀ {first second : List PropDecl},
        (sign.leaves (readLines none before).drafts).reverse.map Draft.prop ++ first =
            (readLines none before).props ++ second ↔
          (sign.leaves (readLines none before).drafts).reverse.map Draft.prop =
            (readLines none before).props ∧ first = second :=
      ⟨fun same => List.append_inj same sameLength, fun both => by rw [both.1, both.2]⟩
    rw [divided, Reading.props, isSign.props_leaves_iff, drafts_readLines_eq_nil_iff isBefore]
    refine and_congr_right fun _ => ?_
    cases isWords : sign.words with
    | none => simp
    | some words => simpa using props_readLines_iff isAfter _ words

/-- A signature behind this word, if there is one, and its comment. -/
def sampleSign (gap : Option (List Char)) : IndexSignature :=
  { doc := some "/** Others */".toList
    indent := []
    gap := gap
    key := "key: string".toList
    value := " unknown".toList }

instance (c : Char) : Decidable (IsSingle c) := inferInstanceAs (Decidable (_ ∧ _))

/-- A test that a text without literals and comments is whole. -/
theorem isWhole_of_isSingle {text : List Char} (single : ∀ c ∈ text, IsSingle c)
    (closed : ∃ last, ({} : Nesting).through memberSeparation (lexemes text) =
      .ok { previous := last }) : IsWhole memberSeparation none text := by
  refine ⟨?_, closed⟩
  clear closed
  induction text with
  | nil => exact .nil
  | cons c text ih =>
      rw [List.forall_mem_cons] at single
      exact .single single.1 (ih single.2)

theorem sampleSign_isWritten {gap : Option (List Char)} (isGap : gap ∈ [none, some [' ']]) :
    (sampleSign gap).IsWritten := by
  have written : Doc.IsWritten { before := [], inside := " Others ".toList } :=
    ⟨by decide, by decide +kernel⟩
  have isDoc : IsNote "/** Others */".toList := ⟨written.isWhole, by decide +kernel⟩
  have whole : ∀ gap ∈ [none, some [' ']],
      IsWhole memberSeparation none (sampleSign gap).code := by
    simp only [List.forall_mem_cons, List.not_mem_nil, false_implies, implies_true, and_true]
    constructor <;>
      exact isWhole_of_isSingle (forall_mem_of_all (by decide +kernel))
        ⟨some 'n', by decide +kernel⟩
  refine ⟨?_, List.forall_mem_nil _, ?_, whole gap isGap⟩
  · rintro text ⟨⟩
    exact isDoc
  · rintro text isText
    simp only [List.mem_cons, List.not_mem_nil, or_false] at isGap
    rcases isGap with rfl | rfl
    · cases isText
    · cases isText
      decide

/-- Between two members the comment above a signature describes the second one, and a
read-only signature goes on with the type of the first one. -/
theorem membersOf_sampleSign :
    (∀ gap ∈ [none, some [' ']], (sampleSign gap).IsWritten ∧
      membersOf (bodyText [.member "a: A".toList []] ++ (sampleSign gap).text ++
          bodyText [.member "b: B".toList []]) ≠
        membersOf (bodyText [.member "a: A".toList []] ++ bodyText [.member "b: B".toList []])) ∧
      membersOf "a: A;\n/** Others */\n[key: string]: unknown;\nb: B;\n".toList =
        [{ name := "a", type := "A", required := true },
          { name := "b", type := "B", required := true, description := some "Others" }] ∧
      membersOf "a: A;\nreadonly [key: string]: unknown;\nb: B;\n".toList =
        [{ name := "a", type := "A;readonly [key: string]: unknown", required := true },
          { name := "b", type := "B", required := true }] := by
  have isLine : ∀ code ∈ ["a: A".toList, "b: B".toList], (BodyLine.member code []).IsWritten := by
    simp only [List.forall_mem_cons, List.not_mem_nil, false_implies, implies_true, and_true]
    have first : IsWhole memberSeparation none "a: A".toList :=
      isWhole_of_isSingle (forall_mem_of_all (by decide +kernel)) ⟨some 'A', by decide +kernel⟩
    have second : IsWhole memberSeparation none "b: B".toList :=
      isWhole_of_isSingle (forall_mem_of_all (by decide +kernel)) ⟨some 'B', by decide +kernel⟩
    exact ⟨.member first (by decide +kernel) isNote_nil, .member second (by decide +kernel) isNote_nil⟩
  rw [List.forall_mem_cons, List.forall_mem_singleton] at isLine
  refine ⟨fun gap isGap => ⟨sampleSign_isWritten isGap, fun same => ?_⟩, by decide +kernel,
    by decide +kernel⟩
  have isSame := membersOf_indexSignature_iff (List.forall_mem_singleton.mpr isLine.1)
    (List.forall_mem_singleton.mpr isLine.2) (sampleSign_isWritten isGap)
  have displaced : displaces (readLines none [.member "a: A".toList []]).waiting "Others".toList
      [.member "b: B".toList []] = true := by decide +kernel
  have isWords : (sampleSign gap).words = some "Others".toList := by
    show wordsOf "/** Others */".toList = _
    decide +kernel
  have kept := (isSame.2.mp same).2 "Others".toList isWords
  rw [displaced] at kept
  cases kept

end ComponentAtlas.Props
