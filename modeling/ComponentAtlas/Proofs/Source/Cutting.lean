/-
Module: ComponentAtlas.Proofs.Source.Cutting
Purpose: The segments of any script at its commas, with its comments and without them.
Main exports:
  commas, Cut.whole, flatMap_whole_cuts, exists_cuts, cuts_remains, isFiller,
  segments_withoutComments
-/
import ComponentAtlas.Proofs.Source.Comments
import ComponentAtlas.Proofs.Source.Segment

namespace ComponentAtlas.Source

open ComponentAtlas.Text

/-- Division at commas. -/
def commas : Separation := { separators := [','] }

/-!
The cuts of a script are its lexemes again, and only the last cut has no separator.
-/

/-- The lexemes of the cut together with its separator. -/
def Cut.whole (cut : Cut) : List Lexeme := cut.parts ++ (cut.separator.map Lexeme.code).toList

section

variable {style : Separation} {nesting next : Nesting} {part : Lexeme} {parts : List Lexeme}
  {separator : Char}

theorem flatMap_whole_consCut (part : Lexeme) (rest : List Cut) :
    (consCut part rest).flatMap Cut.whole = part :: rest.flatMap Cut.whole := by
  cases rest with
  | nil => rfl
  | cons cut others => rfl

/-- What a lexeme cuts at is its one character, which stands outside all brackets and type
argument lists. -/
theorem Nesting.after_eq_error (cut : nesting.after style part = .error separator) :
    part = .code separator ∧ separator ∈ style.separators ∧ isOpener separator = false ∧
      isCloser separator = false ∧ nesting.brackets = 0 ∧ nesting.angles = 0 := by
  cases part with
  | literal text => cases cut
  | comment text => cases cut
  | code c =>
      unfold after at cut
      dsimp only at cut
      split at cut
      · cases cut
      · rename_i isCut
        cases cut
        grind [afterCode?]

theorem cuts_separator (cut : nesting.after style part = .error separator)
    (parts : List Lexeme) :
    cuts style nesting (part :: parts) = { parts := [], separator := some separator } ::
      cuts style { nesting with previous := some separator } parts := by
  rw [cuts, cut]

theorem flatMap_whole_cuts (style : Separation) (nesting : Nesting) (parts : List Lexeme) :
    (cuts style nesting parts).flatMap Cut.whole = parts := by
  induction parts generalizing nesting with
  | nil => rfl
  | cons part rest ih =>
      cases after : nesting.after style part with
      | error separator =>
          obtain ⟨rfl, -⟩ := Nesting.after_eq_error after
          rw [cuts_separator after, List.flatMap_cons, ih]
          rfl
      | ok next => rw [cuts_cons after, flatMap_whole_consCut, ih]

theorem exists_cuts (style : Separation) (nesting : Nesting) (parts : List Lexeme) :
    ∃ ended last, cuts style nesting parts = ended ++ [last] ∧ last.separator = none ∧
      ∀ cut ∈ ended, ∃ separator ∈ style.separators, cut.separator = some separator := by
  induction parts generalizing nesting with
  | nil => exact ⟨[], _, rfl, rfl, by simp⟩
  | cons part rest ih =>
      cases after : nesting.after style part with
      | error separator =>
          obtain ⟨-, listed, -⟩ := Nesting.after_eq_error after
          obtain ⟨ended, last, isCuts, noSeparator, each⟩ :=
            ih { nesting with previous := some separator }
          refine ⟨{ parts := [], separator := some separator } :: ended, last, ?_, noSeparator, ?_⟩
          · rw [cuts_separator after, isCuts, List.cons_append]
          · exact List.forall_mem_cons.mpr ⟨⟨separator, listed, rfl⟩, each⟩
      | ok next =>
          obtain ⟨ended, last, isCuts, noSeparator, each⟩ := ih next
          rw [cuts_cons after, isCuts]
          cases ended with
          | nil => exact ⟨[], _, rfl, noSeparator, by simp⟩
          | cons first ended =>
              rw [List.forall_mem_cons] at each
              exact ⟨{ first with parts := part :: first.parts } :: ended, last, rfl, noSeparator,
                List.forall_mem_cons.mpr each⟩

/-- Each cut is divided on its own as it is in the whole. -/
theorem AreLexemes.of_mem_cuts {pieces : List Cut}
    (areLexemes : AreLexemes (pieces.flatMap Cut.whole)) :
    ∀ cut ∈ pieces, AreLexemes cut.parts := by
  induction pieces with
  | nil => simp
  | cons first others ih =>
      rw [List.flatMap_cons] at areLexemes
      exact List.forall_mem_cons.mpr ⟨areLexemes.left.left, ih areLexemes.right⟩

/-- The segments of a script are those of its cuts that end at a separator, and the rest
behind them, unless it is blank. -/
theorem exists_segments (style : Separation) (text : List Char) :
    ∃ ended last, cuts style {} (lexemes text) = ended ++ [last] ∧ last.separator = none ∧
      (∀ cut ∈ ended, ∃ separator ∈ style.separators, cut.separator = some separator) ∧
      segments style text =
        ended.map Cut.segment ++ if isAllBlank last.segment.text then [] else [last.segment] := by
  obtain ⟨ended, last, isCuts, noSeparator, each⟩ := exists_cuts style {} (lexemes text)
  refine ⟨ended, last, isCuts, noSeparator, each, ?_⟩
  have allKept : (ended.map Cut.segment).filter Segment.isKept = ended.map Cut.segment := by
    refine List.filter_eq_self.mpr fun segment member => ?_
    obtain ⟨cut, isEnded, rfl⟩ := List.mem_map.mp member
    obtain ⟨separator, -, ends⟩ := each cut isEnded
    simp [Segment.isKept, Cut.segment, ends]
  have lastKept : last.segment.isKept = !isAllBlank last.segment.text := by
    simp [Segment.isKept, Cut.segment, noSeparator]
  rw [segments, isCuts, List.map_append, List.filter_append, allKept]
  cases blank : isAllBlank last.segment.text <;> simp [lastKept, blank]

end

/-!
Where type arguments do not nest, only the number of open brackets counts.
-/

/-- The number of open brackets behind a lexeme, when so many are open before it. -/
def Lexeme.depth (opened : Nat) : Lexeme → Nat
  | .code c => if isOpener c then opened + 1 else if isCloser c then opened - 1 else opened
  | _ => opened

/-- Equally many brackets and type argument lists are open. -/
def Nesting.AsDeep (nesting other : Nesting) : Prop :=
  nesting.brackets = other.brackets ∧ nesting.angles = other.angles

section

variable {style : Separation} {nesting other next : Nesting} {part : Lexeme} {separator : Char}

theorem Nesting.after_of_noLists (noLists : style.typeArguments = false) (nesting : Nesting)
    (part : Lexeme) :
    (∃ separator, nesting.after style part = .error separator) ∨
      ∃ previous, nesting.after style part =
        .ok { brackets := part.depth nesting.brackets, angles := nesting.angles, previous } := by
  cases part with
  | literal text => exact .inr ⟨_, rfl⟩
  | comment text => exact .inr ⟨_, rfl⟩
  | code c =>
      unfold after afterCode?
      simp only [noLists, Bool.false_and, Bool.false_eq_true, if_false]
      by_cases opener : isOpener c
      · exact .inr ⟨some c, by simp [opener, Lexeme.depth]⟩
      by_cases closer : isCloser c
      · exact .inr ⟨some c, by simp [opener, closer, Lexeme.depth]⟩
      simp only [opener, closer, Lexeme.depth, Bool.false_eq_true, if_false]
      split
      · rename_i isNext
        split at isNext
        · cases isNext
        · cases isNext
          exact .inr ⟨_, rfl⟩
      · exact .inl ⟨c, rfl⟩

theorem Nesting.after_eq_ok (noLists : style.typeArguments = false)
    (after : nesting.after style part = .ok next) :
    next.brackets = part.depth nesting.brackets ∧ next.angles = nesting.angles := by
  rcases nesting.after_of_noLists noLists part with ⟨separator, cut⟩ | ⟨previous, isNext⟩
  · rw [cut] at after
    cases after
  · rw [isNext] at after
    cases after
    exact ⟨rfl, rfl⟩

theorem Nesting.AsDeep.after_error (noLists : style.typeArguments = false)
    (deep : nesting.AsDeep other) (cut : other.after style part = .error separator) :
    nesting.after style part = .error separator := by
  obtain ⟨rfl, -⟩ := after_eq_error cut
  obtain ⟨sameBrackets, sameAngles⟩ := deep
  grind [Nesting.after, afterCode?]

theorem Nesting.AsDeep.after_ok (noLists : style.typeArguments = false)
    (deep : nesting.AsDeep other) (isNext : other.after style part = .ok next) :
    ∃ between, nesting.after style part = .ok between ∧ between.AsDeep next := by
  obtain ⟨brackets, angles⟩ := after_eq_ok noLists isNext
  cases isBetween : nesting.after style part with
  | error separator =>
      have back : other.AsDeep nesting := ⟨deep.1.symm, deep.2.symm⟩
      rw [back.after_error noLists isBetween] at isNext
      cases isNext
  | ok between =>
      obtain ⟨sameBrackets, sameAngles⟩ := after_eq_ok noLists isBetween
      exact ⟨between, rfl, by rw [sameBrackets, brackets, deep.1], by rw [sameAngles, angles, deep.2]⟩

/-- The character before a place decides nothing. -/
theorem cuts_congr (noLists : style.typeArguments = false) (deep : nesting.AsDeep other)
    (parts : List Lexeme) : cuts style nesting parts = cuts style other parts := by
  induction parts generalizing nesting other with
  | nil => rfl
  | cons part parts ih =>
      cases after : other.after style part with
      | error separator =>
          rw [cuts_separator after, cuts_separator (deep.after_error noLists after)]
          exact congrArg _ (ih deep)
      | ok next =>
          obtain ⟨between, isBetween, asDeep⟩ := deep.after_ok noLists after
          rw [cuts_cons after, cuts_cons isBetween, ih asDeep]

end

/-!
Without the comments, a script is cut where it was cut before.
-/

/-- The cut without its comments. -/
def Cut.withoutComments (cut : Cut) : Cut := { cut with parts := cut.parts.flatMap Lexeme.remains }

/-- The segment without its comments. -/
def Segment.withoutComments (segment : Segment) : Segment :=
  { segment with text := Source.withoutComments segment.text }

section

variable {style : Separation} {nesting next : Nesting} {part : Lexeme} {breaks : List Char}

theorem through_breaks (noLists : style.typeArguments = false)
    (keepsBreaks : '\n' ∉ style.separators) (isBreaks : ∀ c ∈ breaks, c = '\n')
    (nesting : Nesting) :
    ∃ next, nesting.through style (breaks.map .code) = .ok next ∧ next.AsDeep nesting := by
  induction breaks generalizing nesting with
  | nil => exact ⟨nesting, rfl, rfl, rfl⟩
  | cons c breaks ih =>
      rw [List.forall_mem_cons] at isBreaks
      obtain ⟨rfl, isBreaks⟩ := isBreaks
      have after : nesting.after style (.code '\n') = .ok { nesting with previous := some '\n' } :=
        Nesting.after_code noLists rfl rfl fun _ => keepsBreaks
      obtain ⟨next, through, deep⟩ := ih isBreaks { nesting with previous := some '\n' }
      exact ⟨next, by rw [List.map_cons, Nesting.through_cons after, through], deep⟩

/-- What remains of a lexeme that cuts nothing cuts nothing. -/
theorem through_remains (noLists : style.typeArguments = false)
    (keepsBreaks : '\n' ∉ style.separators) (after : nesting.after style part = .ok next) :
    ∃ between, nesting.through style part.remains = .ok between ∧ between.AsDeep next := by
  cases part with
  | code c => exact ⟨next, Nesting.through_cons after [], rfl, rfl⟩
  | literal text => exact ⟨next, Nesting.through_cons after [], rfl, rfl⟩
  | comment text =>
      have isBreaks : ∀ c ∈ text.filter (· = '\n'), c = '\n' := by simp
      obtain ⟨between, through, deep⟩ := through_breaks noLists keepsBreaks isBreaks nesting
      cases after
      exact ⟨between, through, deep⟩

theorem cuts_remains (noLists : style.typeArguments = false)
    (keepsBreaks : '\n' ∉ style.separators) (nesting : Nesting) (parts : List Lexeme) :
    cuts style nesting (parts.flatMap Lexeme.remains) =
      (cuts style nesting parts).map Cut.withoutComments := by
  induction parts generalizing nesting with
  | nil => rfl
  | cons part parts ih =>
      rw [List.flatMap_cons]
      cases after : nesting.after style part with
      | error separator =>
          obtain ⟨rfl, -⟩ := Nesting.after_eq_error after
          rw [cuts_separator after, List.map_cons, ← ih]
          exact cuts_separator after _
      | ok next =>
          obtain ⟨between, through, deep⟩ := through_remains noLists keepsBreaks after
          rw [cuts_cons after, cuts_append through, cuts_congr noLists deep, ih]
          cases isCuts : cuts style next parts with
          | nil =>
              obtain ⟨ended, last, isDivision, -⟩ := exists_cuts style next parts
              rw [isCuts] at isDivision
              exact absurd isDivision.symm (by simp)
          | cons cut others =>
              rw [List.map_cons, foldr_consCut, consCut, List.map_cons]
              rfl

end

/-!
A text of which only blanks are left without its comments.
-/

/-- The lexeme is a comment or a blank. -/
def Lexeme.isFiller : Lexeme → Bool
  | .code c => isBlank c
  | .literal _ => false
  | .comment _ => true

/-- The text consists of comments and blanks. -/
def isFiller (text : List Char) : Bool := (lexemes text).all Lexeme.isFiller

section

variable {parts : List Lexeme} {cut : Cut}

theorem AreLexemes.isAllBlank_uncommented (areLexemes : AreLexemes parts) :
    isAllBlank (parts.flatMap Lexeme.uncommented) = parts.all Lexeme.isFiller := by
  induction areLexemes with
  | nil => rfl
  | code c _ _ _ ih =>
      rw [List.flatMap_cons, isAllBlank_append, ih, List.all_cons]
      simp [Lexeme.uncommented, Lexeme.isFiller, isAllBlank]
  | literal quote inside isQuote _ _ _ =>
      have notBlank := isBlank_of_isOrdinary_eq_false (isOrdinary_of_isQuote isQuote)
      simp [Lexeme.uncommented, Lexeme.isFiller, isAllBlank, notBlank]
  | comment inside _ _ ih =>
      rw [List.flatMap_cons, isAllBlank_append, ih, Lexeme.uncommented, isAllBlank_lineBreaks]
      rfl

theorem isAllBlank_withoutComments (text : List Char) :
    isAllBlank (withoutComments text) = isFiller text :=
  (areLexemes_lexemes text).isAllBlank_uncommented

theorem isFiller_of_isAllBlank {text : List Char} (blank : isAllBlank text) : isFiller text := by
  have ordinary : ∀ c ∈ text, isOrdinary c := fun c member =>
    isOrdinary_of_isBlank (List.all_eq_true.mp blank c member)
  rw [← isAllBlank_withoutComments, withoutComments_of_ordinary ordinary]
  exact blank

theorem Cut.segment_withoutComments (areLexemes : AreLexemes cut.parts) :
    cut.withoutComments.segment = cut.segment.withoutComments := by
  simp only [segment, withoutComments, Segment.withoutComments, textOf_flatMap_remains,
    areLexemes.withoutComments_textOf]

end

theorem Segment.isKept_withoutComments (segment : Segment) :
    segment.withoutComments.isKept =
      (segment.isKept && (segment.separator.isSome || !isFiller segment.text)) := by
  have isSame : segment.withoutComments.isKept =
      (segment.separator.isSome || !isFiller segment.text) := by
    rw [← isAllBlank_withoutComments]
    rfl
  rw [isSame, isKept]
  by_cases blank : isAllBlank segment.text
  · simp [blank, isFiller_of_isAllBlank blank]
  · simp [blank]

/-- Each segment but a rest behind the last separator ends at a separator. -/
theorem separator_of_mem_dropLast {style : Separation} {text : List Char} {segment : Segment}
    (member : segment ∈ (segments style text).dropLast) :
    ∃ separator ∈ style.separators, segment.separator = some separator := by
  obtain ⟨ended, last, -, -, each, isSegments⟩ := exists_segments style text
  have isEnded : segment ∈ ended.map Cut.segment := by
    rw [isSegments] at member
    split at member
    · rw [List.append_nil] at member
      exact List.dropLast_subset _ member
    · rwa [List.dropLast_concat] at member
  obtain ⟨cut, inEnded, rfl⟩ := List.mem_map.mp isEnded
  exact each cut inEnded

/-- Removing the comments of a script and dividing it at its commas can be done in either
order, but for a rest behind the last comma that is left out when comments and blanks are all
there is to it.  Each segment but such a rest ends at a comma. -/
theorem segments_withoutComments (text : List Char) :
    segments commas (withoutComments text) =
      ((segments commas text).filter fun segment =>
        segment.separator.isSome || !isFiller segment.text).map Segment.withoutComments ∧
    (segments commas text).dropLast.all fun segment => segment.separator = some ',' := by
  constructor
  · have areLexemes : ∀ cut ∈ cuts commas {} (lexemes text), AreLexemes cut.parts := by
      refine AreLexemes.of_mem_cuts ?_
      rw [flatMap_whole_cuts]
      exact areLexemes_lexemes text
    have sameSegments : ((cuts commas {} (lexemes text)).map Cut.withoutComments).map Cut.segment =
        ((cuts commas {} (lexemes text)).map Cut.segment).map Segment.withoutComments := by
      rw [List.map_map, List.map_map]
      exact List.map_congr_left fun cut member => Cut.segment_withoutComments (areLexemes cut member)
    rw [segments, lexemes_withoutComments, cuts_remains rfl (by decide), sameSegments,
      List.filter_map, segments, List.filter_filter]
    refine congrArg _ (List.filter_congr fun segment _ => ?_)
    rw [Function.comp_apply, segment.isKept_withoutComments, Bool.and_comm]
  · refine List.all_eq_true.mpr fun segment member => ?_
    obtain ⟨separator, listed, ends⟩ := separator_of_mem_dropLast member
    simpa [commas, ends] using listed

example :
    segments commas "a, /* b */, // c".toList =
        [⟨"a".toList, some ','⟩, ⟨" /* b */".toList, some ','⟩, ⟨" // c".toList, none⟩] ∧
      segments commas (withoutComments "a, /* b */, // c".toList) =
        [⟨"a".toList, some ','⟩, ⟨" ".toList, some ','⟩] := by
  decide +kernel

end ComponentAtlas.Source
