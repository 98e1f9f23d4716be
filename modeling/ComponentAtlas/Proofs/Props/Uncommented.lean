/-
Module: ComponentAtlas.Proofs.Props.Uncommented
Purpose: The members of a body and those of the body without its comments.
Main exports:
  IsTame, KeepsMembers, codes_withoutComments, Reading.bare_foldl, membersOf_withoutComments,
  sourceProps_withoutComments, sourceProps_behindSlashes
-/
import ComponentAtlas.Proofs.Props.Header
import ComponentAtlas.Proofs.Props.Standing
import ComponentAtlas.Props.Extractor

namespace ComponentAtlas.Source

/-- The lexeme may open or close a list of type arguments. -/
def Lexeme.isAngle (part : Lexeme) : Bool := part = .code '<' || part = .code '>'

/-- The lexeme is a comment of several lines. -/
def Lexeme.breaksLine : Lexeme → Bool
  | .comment text => text.contains '\n'
  | _ => false

/-- Within a bracket or a list of type arguments. -/
def Nesting.isInside (nesting : Nesting) : Bool := 0 < nesting.brackets || 0 < nesting.angles

section

variable {style : Separation} {nesting other next : Nesting} {part : Lexeme}
  {lead parts : List Lexeme}

theorem Nesting.exists_after (through : nesting.through style (part :: parts) = .ok next) :
    ∃ between, nesting.after style part = .ok between ∧
      between.through style parts = .ok next := by
  cases isAfter : nesting.after style part with
  | error separator =>
      rw [Nesting.through, List.foldlM_cons, isAfter] at through
      cases through
  | ok between => exact ⟨between, rfl, by rwa [through_cons isAfter] at through⟩

theorem Nesting.exists_through (through : nesting.through style (lead ++ parts) = .ok next) :
    ∃ between, nesting.through style lead = .ok between ∧
      between.through style parts = .ok next := by
  induction lead generalizing nesting with
  | nil => exact ⟨nesting, rfl, through⟩
  | cons part lead ih =>
      obtain ⟨between, isAfter, through⟩ := exists_after through
      obtain ⟨middle, isLead, through⟩ := ih through
      exact ⟨middle, by rw [through_cons isAfter, isLead], through⟩

theorem Nesting.AsDeep.eq (deep : nesting.AsDeep other) :
    other = { nesting with previous := other.previous } := by
  obtain ⟨brackets, angles⟩ := deep
  rw [brackets, angles]

theorem Nesting.AsDeep.trans {between : Nesting} (deep : nesting.AsDeep between)
    (further : between.AsDeep other) : nesting.AsDeep other :=
  ⟨deep.1.trans further.1, deep.2.trans further.2⟩

theorem Nesting.AsDeep.isInside (deep : nesting.AsDeep other) (inside : nesting.isInside) :
    other.isInside := by
  rwa [Nesting.isInside, ← deep.1, ← deep.2]

/-- Only in front of an angle the character before it matters. -/
theorem Nesting.AsDeep.after_eq (deep : nesting.AsDeep other)
    (same : part.isAngle → nesting.previous = other.previous) :
    other.after style part = nesting.after style part := by
  rw [deep.eq]
  by_cases angle : part.isAngle
  · rw [← same angle]
  · have noAngle : part ≠ .code '<' ∧ part ≠ .code '>' := by simpa [Lexeme.isAngle] using angle
    exact Nesting.after_congr noAngle nesting other.previous nesting.previous

/-- What remains of lexemes holds the same text, and no comments. -/
theorem flatMap_uncommented_remains (parts : List Lexeme) :
    (parts.flatMap Lexeme.remains).flatMap Lexeme.uncommented =
      parts.flatMap Lexeme.uncommented := by
  rw [List.flatMap_assoc]
  refine List.flatMap_congr fun part _ => ?_
  cases part with
  | code c => rfl
  | literal text => simp [Lexeme.remains, Lexeme.uncommented]
  | comment text =>
      simp [Lexeme.remains, Lexeme.uncommented, List.flatMap_map]

end

end ComponentAtlas.Source

namespace ComponentAtlas.Props

open ComponentAtlas.Text
open ComponentAtlas.Source

/-!
A body and the body without its comments are cut into the same code, as long as no comment
hides a list of type arguments and no line break of a comment comes to stand in the code of a
member.
-/

/-- No comment stands directly in front of an angle. -/
def NoAngleBehind (parts : List Lexeme) : Prop :=
  ∀ lead rest, parts = lead ++ rest → rest.head?.any Lexeme.isComment →
    rest.tail.head?.all (!·.isAngle)

/-- Each comment of several lines stands within a bracket or a list of type arguments. -/
def BreaksInside (nesting : Nesting) (parts : List Lexeme) : Prop :=
  ∀ lead rest, parts = lead ++ rest → rest.head?.any Lexeme.breaksLine →
    (nesting.through memberSeparation lead).toOption.any Nesting.isInside

/-- The comments of the cut can be taken away: none of them stands directly in front of an
angle, and one of several lines stands in front of the code, or within a bracket or a list of
type arguments. -/
structure IsTame (parts : List Lexeme) : Prop where
  noAngle : NoAngleBehind parts
  breaks : ∀ lead rest, parts = lead ++ rest → rest.head?.any Lexeme.breaksLine →
    lead.all Lexeme.isFiller ∨
      (({} : Nesting).through memberSeparation lead).toOption.any Nesting.isInside

instance (parts : List Lexeme) : Decidable (NoAngleBehind parts) :=
  decidable_of_iff _ forall_append_iff.symm

instance (parts : List Lexeme) : Decidable (IsTame parts) :=
  decidable_of_iff (NoAngleBehind parts ∧
      ∀ lead rest, parts = lead ++ rest → rest.head?.any Lexeme.breaksLine →
        lead.all Lexeme.isFiller ∨
          (({} : Nesting).through memberSeparation lead).toOption.any Nesting.isInside)
    ⟨fun both => ⟨both.1, both.2⟩, fun both => ⟨both.1, both.2⟩⟩

/-- The comments of each cut of the body can be taken away. -/
def KeepsMembers (body : List Char) : Prop :=
  ∀ cut ∈ cuts memberSeparation {} (lexemes body), IsTame cut.parts

instance (body : List Char) : Decidable (KeepsMembers body) :=
  List.decidableBAll _ _

/-- The code of lexemes, without comments and outer blanks. -/
def codeOf (parts : List Lexeme) : List Char := trim (parts.flatMap Lexeme.uncommented)

/-- The code of the cut and the separator that ends it, if there is code. -/
def coded? (cut : Cut) : Option (List Char × Option Char) :=
  if codeOf cut.parts = [] then none else some (codeOf cut.parts, cut.separator)

/-- The code of the cuts that have code, with the separators. -/
def codes (pieces : List Cut) : List (List Char × Option Char) := pieces.filterMap coded?

section

variable {nesting other next : Nesting} {part : Lexeme} {parts lead more : List Lexeme}
  {previous behind : Option Char} {breaks : List Char} {c : Char}

theorem NoAngleBehind.tail (noAngle : NoAngleBehind (part :: parts)) : NoAngleBehind parts := by
  rintro lead rest rfl
  exact noAngle (part :: lead) rest rfl

theorem NoAngleBehind.right (noAngle : NoAngleBehind (lead ++ parts)) : NoAngleBehind parts := by
  rintro before rest rfl
  exact noAngle (lead ++ before) rest (List.append_assoc ..).symm

/-- The characters before two nestings are the same, or do not matter for what follows. -/
def Meet (nesting other : Nesting) (parts : List Lexeme) : Prop :=
  nesting.AsDeep other ∧ (parts.head?.any Lexeme.isAngle → nesting.previous = other.previous)

theorem meet_behind_comment {comment : List Char} (deep : nesting.AsDeep other)
    (noAngle : NoAngleBehind (.comment comment :: parts)) : Meet nesting other parts := by
  refine ⟨deep, fun isAngle => ?_⟩
  have none := noAngle [] _ rfl rfl
  cases parts with
  | nil => cases isAngle
  | cons part parts =>
      have isAngle : part.isAngle := isAngle
      simp [isAngle] at none

/-- Within a bracket or a list of type arguments a line break cuts nothing. -/
theorem after_break_inside (inside : nesting.isInside) :
    nesting.after memberSeparation (.code '\n') = .ok { nesting with previous := some '\n' } := by
  have nested : ¬ (nesting.brackets = 0 ∧ nesting.angles = 0) := by
    rintro ⟨noBrackets, noAngles⟩
    simp [Nesting.isInside, noBrackets, noAngles] at inside
  have kept : nesting.afterCode? memberSeparation '\n' =
      some { nesting with previous := some '\n' } := by
    simp [Nesting.afterCode?, isOpener, isCloser, nested]
  rw [Nesting.after, kept]

theorem through_breaks_inside (isBreaks : ∀ c ∈ breaks, c = '\n') (inside : nesting.isInside) :
    ∃ next, nesting.through memberSeparation (breaks.map .code) = .ok next ∧
      nesting.AsDeep next := by
  induction breaks generalizing nesting with
  | nil => exact ⟨nesting, rfl, rfl, rfl⟩
  | cons c breaks ih =>
      rw [List.forall_mem_cons] at isBreaks
      obtain ⟨rfl, isBreaks⟩ := isBreaks
      have inside' : ({ nesting with previous := some '\n' } : Nesting).isInside := inside
      obtain ⟨next, through, deep⟩ := ih isBreaks inside'
      exact ⟨next, by rw [List.map_cons, Nesting.through_cons (after_break_inside inside), through],
        deep⟩

/-- A comment leaves line breaks at most. -/
theorem through_remains_comment {text : List Char}
    (inside : (Lexeme.comment text).breaksLine → nesting.isInside) :
    ∃ next, nesting.through memberSeparation (Lexeme.comment text).remains = .ok next ∧
      nesting.AsDeep next := by
  by_cases breaksLine : (Lexeme.comment text).breaksLine
  · have isBreaks : ∀ c ∈ text.filter (· = '\n'), c = '\n' := by simp
    exact through_breaks_inside isBreaks (inside breaksLine)
  · have noBreak : '\n' ∉ text := by simpa [Lexeme.breaksLine] using breaksLine
    have none : text.filter (· = '\n') = [] := by
      simpa using fun c member => ne_of_mem_of_not_mem member noBreak
    refine ⟨nesting, ?_, rfl, rfl⟩
    rw [Lexeme.remains, none]
    rfl

/-- From the code on, as many brackets and lists of type arguments are open when the comments
are taken away. -/
theorem through_remains_inside (through : nesting.through memberSeparation parts = .ok next)
    (meets : Meet nesting other parts) (noAngle : NoAngleBehind parts)
    (breaksInside : BreaksInside nesting parts) :
    ∃ last, other.through memberSeparation (parts.flatMap Lexeme.remains) = .ok last ∧
      next.AsDeep last := by
  induction parts generalizing nesting other with
  | nil =>
      cases through
      exact ⟨other, rfl, meets.1⟩
  | cons part parts ih =>
      obtain ⟨between, isAfter, through⟩ := Nesting.exists_after through
      have later : BreaksInside between parts := by
        rintro lead rest rfl breaksLine
        have inside := breaksInside (part :: lead) rest rfl breaksLine
        rwa [Nesting.through_cons isAfter] at inside
      -- It is enough to meet again behind the lexeme.
      have goesOn {behind : Nesting}
          (passed : other.through memberSeparation part.remains = .ok behind)
          (meetsLater : Meet between behind parts) :
          ∃ last, other.through memberSeparation ((part :: parts).flatMap Lexeme.remains) = .ok last ∧
            next.AsDeep last := by
        obtain ⟨last, isLast, deep⟩ := ih through meetsLater noAngle.tail later
        exact ⟨last, by rw [List.flatMap_cons, Nesting.through_append passed, isLast], deep⟩
      have sameAfter := (meets.1.after_eq meets.2).trans isAfter
      cases part with
      | code c => exact goesOn (Nesting.through_cons sameAfter []) ⟨⟨rfl, rfl⟩, fun _ => rfl⟩
      | literal text => exact goesOn (Nesting.through_cons sameAfter []) ⟨⟨rfl, rfl⟩, fun _ => rfl⟩
      | comment text =>
          cases isAfter
          obtain ⟨behind, passed, deep⟩ := through_remains_comment fun breaksLine =>
            meets.1.isInside (breaksInside [] _ rfl breaksLine)
          exact goesOn passed (meet_behind_comment (meets.1.trans deep) noAngle)

theorem codes_cons_of_noCode {cut : Cut} (noCode : codeOf cut.parts = []) (pieces : List Cut) :
    codes (cut :: pieces) = codes pieces := by
  have none : coded? cut = none := if_pos noCode
  rw [codes, List.filterMap_cons_none none, codes]

theorem codes_cons_congr {pieces others : List Cut} (sameCode : codeOf lead = codeOf parts)
    (same : codes pieces = codes others) (separator : Option Char) :
    codes ({ parts := lead, separator := separator } :: pieces) =
      codes ({ parts := parts, separator := separator } :: others) := by
  have sameHead : coded? { parts := lead, separator := separator } =
      coded? { parts := parts, separator := separator } := by
    simp only [coded?, sameCode]
  rw [codes, codes, List.filterMap_cons, List.filterMap_cons, sameHead, ← codes, ← codes, same]

theorem codeOf_append (blank : isAllBlank (lead.flatMap Lexeme.uncommented))
    (parts : List Lexeme) : codeOf (lead ++ parts) = codeOf parts := by
  rw [codeOf, List.flatMap_append, trim_append_of_isAllBlank blank, codeOf]

theorem codeOf_remains (parts : List Lexeme) :
    codeOf (parts.flatMap Lexeme.remains) = codeOf parts := by
  rw [codeOf, flatMap_uncommented_remains, codeOf]

theorem codes_consCut (blank : isBlank c) (pieces : List Cut) :
    codes (consCut (.code c) pieces) = codes pieces := by
  have allBlank : isAllBlank ([.code c].flatMap Lexeme.uncommented) := by
    simpa [isAllBlank, Lexeme.uncommented] using blank
  cases pieces with
  | nil => exact codes_cons_of_noCode (codeOf_append allBlank []) []
  | cons cut others =>
      have sameCode : codeOf (.code c :: cut.parts) = codeOf cut.parts :=
        codeOf_append allBlank cut.parts
      exact codes_cons_congr sameCode rfl cut.separator

/-- Outside everything each line break cuts off a piece without code. -/
theorem codes_cuts_breaks (isBreaks : ∀ c ∈ breaks, c = '\n') (previous : Option Char)
    (more : List Lexeme) :
    ∃ behind, codes (cuts memberSeparation { previous := previous } (breaks.map .code ++ more)) =
      codes (cuts memberSeparation { previous := behind } more) := by
  induction breaks generalizing previous with
  | nil => exact ⟨previous, rfl⟩
  | cons c breaks ih =>
      rw [List.forall_mem_cons] at isBreaks
      obtain ⟨rfl, isBreaks⟩ := isBreaks
      obtain ⟨behind, same⟩ := ih isBreaks (some '\n')
      have cut : ({ previous := previous } : Nesting).after memberSeparation (.code '\n') =
          .error '\n' := (divides_separator (by decide)).after previous
      refine ⟨behind, ?_⟩
      rw [List.map_cons, List.cons_append, cuts_separator cut, codes_cons_of_noCode rfl, same]

/-- A blank that cuts nothing opens and closes nothing. -/
theorem after_blank (blank : isBlank c)
    (through : nesting.through memberSeparation (.code c :: parts) = .ok next) :
    nesting.after memberSeparation (.code c) = .ok { nesting with previous := some c } := by
  have ⟨noOpener, noCloser⟩ := bracket_of_isOrdinary (isOrdinary_of_isBlank blank)
  have notLess : c ≠ '<' := ne_of_isBlank blank rfl
  have notGreater : c ≠ '>' := ne_of_isBlank blank rfl
  obtain ⟨between, isAfter, -⟩ := Nesting.exists_after through
  rw [isAfter]
  simp only [Nesting.after] at isAfter
  split at isAfter
  case h_1 isNext =>
    cases isAfter
    simp [Nesting.afterCode?, noOpener, noCloser, notLess, notGreater] at isNext
    rw [← isNext.2]
  case h_2 => cases isAfter

/-- Blanks and comments in front leave no code. -/
theorem codes_cuts_filler (filler : lead.all Lexeme.isFiller)
    (through : ({ previous := previous } : Nesting).through memberSeparation lead = .ok next)
    (meets : Meet { previous := previous } { previous := behind } (lead ++ parts))
    (noAngle : NoAngleBehind (lead ++ parts)) (more : List Lexeme) :
    ∃ last, Meet next { previous := last } parts ∧
      codes (cuts memberSeparation { previous := behind } (lead.flatMap Lexeme.remains ++ more)) =
        codes (cuts memberSeparation { previous := last } more) := by
  induction lead generalizing previous behind with
  | nil =>
      cases through
      exact ⟨behind, meets, rfl⟩
  | cons part lead ih =>
      simp only [List.all_cons, Bool.and_eq_true] at filler
      cases part with
      | literal text => exact absurd filler.1 (by simp [Lexeme.isFiller])
      | comment text =>
          have isBreaks : ∀ c ∈ text.filter (· = '\n'), c = '\n' := by simp
          obtain ⟨between, same⟩ := codes_cuts_breaks isBreaks behind
            (lead.flatMap Lexeme.remains ++ more)
          have meets : Meet { previous := text.getLast? } { previous := between } (lead ++ parts) :=
            meet_behind_comment ⟨rfl, rfl⟩ noAngle
          obtain ⟨last, meetsLast, sameLater⟩ := ih filler.2 through meets noAngle.tail
          refine ⟨last, meetsLast, ?_⟩
          rw [List.flatMap_cons, Lexeme.remains, List.append_assoc, same, sameLater]
      | code c =>
          have blank : isBlank c := filler.1
          have notAngle : ¬ (Lexeme.code c).isAngle := by
            have notLess : c ≠ '<' := ne_of_isBlank blank rfl
            have notGreater : c ≠ '>' := ne_of_isBlank blank rfl
            simp [Lexeme.isAngle, notLess, notGreater]
          have isAfter := after_blank blank through
          have sameAfter := (meets.1.after_eq fun isAngle => absurd isAngle notAngle).trans isAfter
          rw [Nesting.through_cons isAfter] at through
          obtain ⟨last, meetsLast, same⟩ :=
            ih filler.2 through ⟨⟨rfl, rfl⟩, fun _ => rfl⟩ noAngle.tail
          have kept : (Lexeme.code c).remains = [.code c] := rfl
          refine ⟨last, meetsLast, ?_⟩
          rw [List.flatMap_cons, kept, List.append_assoc, List.singleton_append,
            cuts_cons sameAfter, codes_consCut blank, same]

theorem isAllBlank_of_filler (filler : lead.all Lexeme.isFiller) :
    isAllBlank (lead.flatMap Lexeme.uncommented) := by
  induction lead with
  | nil => rfl
  | cons part lead ih =>
      simp only [List.all_cons, Bool.and_eq_true] at filler
      rw [List.flatMap_cons, isAllBlank_append, ih filler.2, Bool.and_true]
      cases part with
      | code c => simpa [Lexeme.uncommented, isAllBlank, Lexeme.isFiller] using filler.1
      | literal text => exact absurd filler.1 (by simp [Lexeme.isFiller])
      | comment text => exact isAllBlank_lineBreaks text

/-- Blanks and comments in front, and what follows from the code on. -/
theorem exists_filler_append (parts : List Lexeme) :
    ∃ lead core, parts = lead ++ core ∧ lead.all Lexeme.isFiller ∧
      core.head?.all (!·.isFiller) := by
  refine ⟨parts.takeWhile Lexeme.isFiller, parts.dropWhile Lexeme.isFiller,
    List.takeWhile_append_dropWhile.symm, List.all_takeWhile, ?_⟩
  have stops := List.head?_dropWhile_not Lexeme.isFiller parts
  cases isHead : (parts.dropWhile Lexeme.isFiller).head? with
  | none => rfl
  | some part =>
      rw [isHead] at stops
      simp [stops]

/-- Behind the blanks and comments in front, a comment of several lines stands within a bracket
or a list of type arguments. -/
theorem IsTame.breaksInside (tame : IsTame (lead ++ parts))
    (starts : opensTypeArguments previous = false)
    (isLead : ({ previous := previous } : Nesting).through memberSeparation lead = .ok next)
    (coreStarts : parts.head?.all (!·.isFiller)) : BreaksInside next parts := by
  rintro front rest rfl breaksLine
  cases front with
  | nil =>
      -- A comment would still stand in front of the code.
      cases rest with
      | nil => cases breaksLine
      | cons part rest =>
          cases part with
          | comment text => cases coreStarts
          | code c => cases breaksLine
          | literal text => cases breaksLine
  | cons part front =>
      have notFiller : ¬ (lead ++ part :: front).all Lexeme.isFiller := by
        have isCode : part.isFiller = false := by simpa using coreStarts
        simp [isCode]
      have isWhole := tame.breaks (lead ++ part :: front) rest (List.append_assoc ..).symm breaksLine
      have restarts : opensTypeArguments none = opensTypeArguments previous := starts.symm
      have inside := isWhole.resolve_left notFiller
      rwa [Nesting.through_restart restarts (by simp), Nesting.through_append isLead] at inside

/-- The lexemes that no separator divides leave their code in one piece. -/
theorem codes_cuts_remains (tame : IsTame parts) (starts : opensTypeArguments previous = false)
    (through : ({ previous := previous } : Nesting).through memberSeparation parts = .ok next)
    (more : List Lexeme) :
    ∃ inner between, codeOf inner = codeOf parts ∧ next.AsDeep between ∧
      codes (cuts memberSeparation { previous := previous }
          (parts.flatMap Lexeme.remains ++ more)) =
        codes (inner.foldr consCut (cuts memberSeparation between more)) := by
  obtain ⟨lead, core, rfl, filler, coreStarts⟩ := exists_filler_append parts
  obtain ⟨middle, isLead, through⟩ := Nesting.exists_through through
  obtain ⟨last, meets, sameCodes⟩ := codes_cuts_filler filler isLead ⟨⟨rfl, rfl⟩, fun _ => rfl⟩
    tame.noAngle (core.flatMap Lexeme.remains ++ more)
  obtain ⟨between, isBetween, deep⟩ := through_remains_inside through meets
    tame.noAngle.right (tame.breaksInside starts isLead coreStarts)
  refine ⟨core.flatMap Lexeme.remains, between, ?_, deep, ?_⟩
  · rw [codeOf_remains, codeOf_append (isAllBlank_of_filler filler)]
  · rw [List.flatMap_append, List.append_assoc, sameCodes, cuts_append isBetween]

/-- Cut one after the other, the pieces have the same code when their comments are taken
away. -/
theorem codes_remains {pieces : List Cut} (areCuts : AreCuts memberSeparation nesting pieces)
    (outside : nesting = { previous := previous }) (starts : opensTypeArguments previous = false)
    (tame : ∀ cut ∈ pieces, IsTame cut.parts) :
    codes (cuts memberSeparation nesting ((pieces.flatMap Cut.whole).flatMap Lexeme.remains)) =
      codes pieces := by
  have restarts : ∀ c ∈ memberSeparation.separators, opensTypeArguments (some c) = false :=
    forall_mem_of_all (by decide)
  have noAngle : ∀ c ∈ memberSeparation.separators, ¬ (Lexeme.code c).isAngle :=
    forall_mem_of_all (by decide)
  induction areCuts generalizing previous with
  | @last nesting next parts through =>
      subst outside
      rw [List.forall_mem_singleton] at tame
      obtain ⟨inner, between, sameCode, -, same⟩ := codes_cuts_remains tame starts through []
      have isWhole : List.flatMap Cut.whole [{ parts := parts, separator := none }] = parts := by
        simp [Cut.whole]
      rw [isWhole, ← List.append_nil (parts.flatMap _), same, cuts, foldr_consCut, List.append_nil]
      exact codes_cons_congr sameCode rfl none
  | @ended nesting next parts separator rest through ends later ih =>
      subst outside
      rw [List.forall_mem_cons] at tame
      obtain ⟨-, listed, -, -, noBrackets, noAngles⟩ := Nesting.after_eq_error ends
      have isWhole : (List.flatMap Cut.whole
            ({ parts := parts, separator := some separator } :: rest)).flatMap Lexeme.remains =
          parts.flatMap Lexeme.remains ++
            .code separator :: (rest.flatMap Cut.whole).flatMap Lexeme.remains := by
        simp [Cut.whole, Lexeme.remains]
      obtain ⟨inner, between, sameCode, deep, same⟩ := codes_cuts_remains tame.1 starts through
        (.code separator :: (rest.flatMap Cut.whole).flatMap Lexeme.remains)
      have cut : between.after memberSeparation (.code separator) = .error separator := by
        rw [deep.after_eq fun isAngle => absurd isAngle (noAngle separator listed), ends]
      have sameNesting : { between with previous := some separator } =
          { next with previous := some separator } := by
        rw [deep.eq]
      have goesOn : { next with previous := some separator } =
          ({ previous := some separator } : Nesting) := by rw [noBrackets, noAngles]
      rw [isWhole, same, cuts_separator cut, foldr_consCut, List.append_nil, sameNesting]
      exact codes_cons_congr sameCode (ih goesOn (restarts separator listed) tame.2)
        (some separator)

theorem codes_withoutComments {body : List Char} (keeps : KeepsMembers body) :
    codes (cuts memberSeparation {} (lexemes (withoutComments body))) =
      codes (cuts memberSeparation {} (lexemes body)) := by
  have same := codes_remains (areCuts_cuts memberSeparation {} (lexemes body)) rfl rfl keeps
  rwa [flatMap_whole_cuts, ← lexemes_withoutComments] at same

end

/-!
Without the descriptions, the reading of members knows only the code of the pieces.
-/

/-- The name of a prop, its type, and whether it is required. -/
def shape (prop : PropDecl) : String × String × Bool := (prop.name, prop.type, prop.required)

/-- The member without what only descriptions depend on. -/
def Draft.bare (draft : Draft) : Draft := { draft with description := none, openLine := false }

/-- The members that were read, without what only descriptions depend on. -/
def Reading.bare (reading : Reading) : List Draft := reading.drafts.map Draft.bare

/-- What a piece of code makes of the members. -/
def goOn (drafts : List Draft) (coded : List Char × Option Char) : List Draft :=
  (({ drafts := drafts } : Reading).take
    { code := coded.1, comment := none, separator := coded.2 }).bare

section

variable {reading : Reading} {piece : Piece} {body : List Char}

theorem Reading.bare_takeComment (comment : Option (List Char)) :
    (reading.takeComment comment).bare = reading.bare := by
  obtain ⟨_ | ⟨draft, rest⟩, waits⟩ := reading
  · cases comment <;> rfl
  · cases comment with
    | none => rfl
    | some words =>
        simp only [takeComment]
        split <;> rfl

theorem Reading.bare_endLine (separator : Option Char) :
    (reading.endLine separator).bare = reading.bare := by
  obtain ⟨_ | ⟨draft, rest⟩, waits⟩ := reading
  · rfl
  · simp only [endLine]
    split <;> rfl

theorem Reading.bare_take_of_noCode (noCode : piece.code = []) :
    (reading.take piece).bare = reading.bare := by
  rw [take_of_noCode noCode, bare_endLine, bare_takeComment]

theorem Draft.map_bare_bare (drafts : List Draft) :
    (drafts.map bare).map bare = drafts.map bare := by
  rw [List.map_map]
  rfl

theorem Reading.bare_take (reading : Reading) (piece : Piece) :
    (reading.take piece).bare = goOn reading.bare (piece.code, piece.separator) := by
  let plain : Piece := { piece with comment := none }
  let known : Reading := { drafts := reading.bare }
  change (reading.take piece).bare = (known.take plain).bare
  cases starts : piece.startsMember with
  | true =>
      obtain ⟨member, isMember⟩ := Option.isSome_iff_exists.mp starts
      have isPlainMember : member? plain.code = some member := isMember
      rw [take_of_member isMember, take_of_member isPlainMember]
      exact congrArg (_ :: ·) (Draft.map_bare_bare reading.drafts).symm
  | false =>
      by_cases noCode : piece.code = []
      · have noPlainCode : plain.code = [] := noCode
        rw [bare_take_of_noCode noCode, bare_take_of_noCode noPlainCode]
        exact (Draft.map_bare_bare reading.drafts).symm
      · rw [take_of_other_comment starts noCode none]
        rcases take_of_code starts noCode with same | continues
        · rw [same, same]
          exact (Draft.map_bare_bare reading.drafts).symm
        · rw [continues, continues]
          obtain ⟨_ | ⟨draft, rest⟩, waits⟩ := reading
          · rfl
          · exact congrArg (_ :: ·) (Draft.map_bare_bare rest).symm

theorem code_cutPiece {cut : Cut} (areLexemes : AreLexemes cut.parts) :
    (cutPiece cut).code = codeOf cut.parts := by
  have isText : cut.segment.text = textOf cut.parts := rfl
  rw [cutPiece, Piece.of, isText, areLexemes.withoutComments_textOf, codeOf]

/-- The members without their descriptions come from the code alone. -/
theorem Reading.bare_foldl {pieces : List Cut}
    (areLexemes : ∀ cut ∈ pieces, AreLexemes cut.parts) (reading : Reading) :
    ((pieces.map cutPiece).foldl take reading).bare = (codes pieces).foldl goOn reading.bare := by
  induction pieces generalizing reading with
  | nil => rfl
  | cons cut pieces ih =>
      rw [List.forall_mem_cons] at areLexemes
      rw [List.map_cons, List.foldl_cons, ih areLexemes.2]
      by_cases noCode : codeOf cut.parts = []
      · rw [codes_cons_of_noCode noCode, bare_take_of_noCode]
        rw [code_cutPiece areLexemes.1, noCode]
      · have isCoded : coded? cut = some (codeOf cut.parts, cut.separator) := if_neg noCode
        rw [bare_take, code_cutPiece areLexemes.1, codes, codes, List.filterMap_cons_some isCoded,
          List.foldl_cons]
        rfl

theorem bare_reading (body : List Char) :
    (Reading.of body).bare = (codes (cuts memberSeparation {} (lexemes body))).foldl goOn [] := by
  have areLexemes : ∀ cut ∈ cuts memberSeparation {} (lexemes body), AreLexemes cut.parts := by
    refine AreLexemes.of_mem_cuts ?_
    rw [flatMap_whole_cuts]
    exact areLexemes_lexemes body
  rw [reading_eq_foldl_cuts, Reading.bare_foldl areLexemes]
  rfl

theorem map_shape_membersOf (body : List Char) :
    (membersOf body).map shape = (Reading.of body).bare.reverse.map fun draft => shape draft.prop := by
  rw [membersOf, Reading.bare, List.map_map, List.map_reverse, List.map_reverse, List.map_map]
  rfl

/-- Without its comments a body declares members of the same names and types. -/
theorem membersOf_withoutComments (keeps : KeepsMembers body) :
    (membersOf (withoutComments body)).map shape = (membersOf body).map shape := by
  rw [map_shape_membersOf, map_shape_membersOf, bare_reading, bare_reading,
    codes_withoutComments keeps]

end

/-!
The props of a script.
-/

/-- No header touches a comment, and the comments within each body can be taken away. -/
structure KeepsProps (source : List Char) : Prop where
  headers : ∀ header ∈ [interfaceHeader, aliasHeader], Undisturbed header source
  bodies : ∀ header ∈ [interfaceHeader, aliasHeader], ∀ block ∈ blocks header source,
    KeepsMembers block.body

instance (source : List Char) : Decidable (KeepsProps source) :=
  decidable_of_iff ((∀ header ∈ [interfaceHeader, aliasHeader], Undisturbed header source) ∧
      ∀ header ∈ [interfaceHeader, aliasHeader], ∀ block ∈ blocks header source,
        KeepsMembers block.body)
    ⟨fun both => ⟨both.1, both.2⟩, fun both => ⟨both.1, both.2⟩⟩

section

variable {source : List Char}

theorem isPlain_propsHeader {header : Header} (listed : header ∈ [interfaceHeader, aliasHeader]) :
    header.IsPlain := by
  simp only [List.mem_cons, List.not_mem_nil, or_false] at listed
  rcases listed with rfl | rfl
  · exact isPlain_interfaceHeader
  · exact isPlain_aliasHeader

theorem sourceProps_eq (source : List Char) :
    sourceProps source = [interfaceHeader, aliasHeader].flatMap fun header =>
      ((blocks header source).map Block.body).flatMap membersOf := by
  simp only [sourceProps, List.flatMap_map]

theorem sourceProps_withoutComments (keeps : KeepsProps source) :
    (sourceProps (withoutComments source)).map shape = (sourceProps source).map shape := by
  rw [sourceProps_eq, sourceProps_eq, List.map_flatMap, List.map_flatMap]
  refine List.flatMap_congr fun header listed => ?_
  rw [bodies_withoutComments (isPlain_propsHeader listed) (keeps.headers header listed),
    List.map_flatMap, List.map_flatMap, List.flatMap_map]
  refine List.flatMap_congr fun body isBody => ?_
  obtain ⟨block, isBlock, rfl⟩ := List.mem_map.mp isBody
  exact membersOf_withoutComments (keeps.bodies header listed block isBlock)

/-- The marks of a line comment hide no props. -/
theorem sourceProps_behindSlashes (text : List Char) :
    sourceProps ('/' :: '/' :: text) = sourceProps text := by
  rw [sourceProps_eq, sourceProps_eq]
  refine List.flatMap_congr fun header listed => ?_
  rw [bodies_behindSlashes (isPlain_propsHeader listed)]

end

end ComponentAtlas.Props
