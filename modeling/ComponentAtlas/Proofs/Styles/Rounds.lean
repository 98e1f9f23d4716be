/-
Module: ComponentAtlas.Proofs.Styles.Rounds
Purpose: The readers of class attributes as loops over the indexes of a text, and the end of
  every loop that calls the scanners.
Main exports:
  interpolationRound, ends_interpolationRound, literalsRound, ends_literalsRound,
  ReadsLiteral, ReadsValue, ReadsValues, readsValues_iff, scanners_end
-/
import ComponentAtlas.Proofs.Source.Rounds
import ComponentAtlas.Proofs.Styles.Interpolation
import ComponentAtlas.Proofs.Styles.Uncommented
import Mathlib.Data.List.Forall2
import Mathlib.Data.List.ReduceOption

namespace ComponentAtlas.Styles

open ComponentAtlas.Text
open ComponentAtlas.Source

/-!
The removal of interpolations.
-/

/-- Where the loop that removes interpolations stands. -/
structure Dropping where
  index : Nat := 0
  pieces : List Char := []

def interpolationRound (template : List Char) (state : Dropping) : Round Dropping (List Char) :=
  match findFrom template ['$', '{'] state.index with
  | none => .stop (state.pieces ++ template.drop state.index)
  | some start =>
    let pieces := state.pieces ++ template.extract state.index start
    match bracketEnd? template (start + 1) with
    | none => .stop pieces
    | some closer => .goOn { index := closer + 1, pieces := pieces ++ [' '] }

section

variable {template text : List Char} {index start closer : Nat} {c : Char}

theorem withoutInterpolations_here (here : template[index]? = some c)
    (noOpening : ¬standsAt template ['$', '{'] index) :
    withoutInterpolations (template.drop index) =
      c :: withoutInterpolations (template.drop (index + 1)) := by
  rw [drop_of_getElem? here, withoutInterpolations_char]
  rintro rfl next
  rw [List.head?_drop] at next
  exact noOpening (standsAt_pair.mpr ⟨here, next⟩)

theorem withoutInterpolations_of_none (index : Nat) :
    findFrom template ['$', '{'] index = none →
      withoutInterpolations (template.drop index) = template.drop index := by
  induction index using index_induction template with
  | step index ih =>
      intro isFound
      by_cases inText : index < template.length
      · obtain ⟨c, here⟩ := exists_getElem? inText
        rw [findFrom_here _ inText] at isFound
        split at isFound
        · cases isFound
        · next noOpening =>
            rw [withoutInterpolations_here here noOpening,
              ih (index + 1) (Nat.lt_succ_self index) inText isFound, ← drop_of_getElem? here]
      · rw [List.drop_eq_nil_of_le (Nat.le_of_not_lt inText), withoutInterpolations]

/-- Up to the next opening of an interpolation a template is kept. -/
theorem withoutInterpolations_of_some (index : Nat) :
    findFrom template ['$', '{'] index = some start →
      index ≤ start ∧ standsAt template ['$', '{'] start ∧
      withoutInterpolations (template.drop index) =
        template.extract index start ++ withoutInterpolations (template.drop start) := by
  induction index using index_induction template with
  | step index ih =>
      intro isFound
      by_cases inText : index < template.length
      · obtain ⟨c, here⟩ := exists_getElem? inText
        rw [findFrom_here _ inText] at isFound
        split at isFound
        · next opens =>
            cases isFound
            rw [extract_self]
            exact ⟨le_rfl, opens, rfl⟩
        · next noOpening =>
            obtain ⟨isLater, opens, later⟩ := ih (index + 1) (Nat.lt_succ_self index) inText isFound
            refine ⟨Nat.le_of_succ_le isLater, opens, ?_⟩
            have part : template.extract index (index + 1) = [c] := extract_here here 0
            rw [withoutInterpolations_here here noOpening, later,
              ← extract_append (Nat.le_succ index) isLater, part]
            rfl
      · rw [findFrom_past (Nat.le_of_not_lt inText)] at isFound
        cases isFound

theorem withoutInterpolations_at (opens : standsAt template ['$', '{'] start) :
    withoutInterpolations (template.drop start) =
      match bracketEnd? template (start + 1) with
      | none => []
      | some closer => ' ' :: withoutInterpolations (template.drop (closer + 1)) := by
  obtain ⟨here, next⟩ := standsAt_pair.mp opens
  rw [drop_of_getElem? here, drop_of_getElem? next, bracketEnd?_here next rfl,
    withoutInterpolations]
  cases groupLength? (template.drop (start + 2)) with
  | none => rfl
  | some size =>
      dsimp only [Option.map_some]
      rw [List.drop_drop]
      rfl

/-- From every index on the loop adds the rest without interpolations to its pieces. -/
theorem ends_interpolationRound_from (template : List Char) (index : Nat) :
    ∀ pieces, Ends (interpolationRound template) { index, pieces }
      (pieces ++ withoutInterpolations (template.drop index)) := by
  induction index using index_induction template with
  | step index ih =>
      intro pieces
      cases isFound : findFrom template ['$', '{'] index with
      | none =>
          rw [withoutInterpolations_of_none index isFound]
          refine .stop ?_
          rw [interpolationRound, isFound]
      | some start =>
          obtain ⟨isLater, opens, same⟩ := withoutInterpolations_of_some index isFound
          obtain ⟨here, -⟩ := standsAt_pair.mp opens
          obtain ⟨inText, -⟩ := List.getElem?_eq_some_iff.mp here
          rw [same, withoutInterpolations_at opens]
          cases ends : bracketEnd? template (start + 1) with
          | none =>
              rw [List.append_nil]
              refine .stop ?_
              rw [interpolationRound, isFound]
              dsimp only
              rw [ends]
          | some closer =>
              have isBehind := bracketEnd?_eq_some ends
              have later := ih (closer + 1) (by omega) (by omega)
                (pieces ++ template.extract index start ++ [' '])
              dsimp only
              rw [← List.append_assoc, List.append_cons]
              refine .goOn ?_ later
              rw [interpolationRound, isFound]
              dsimp only
              rw [ends]

/-- The loop that removes interpolations ends on every template. -/
theorem ends_interpolationRound (template : List Char) :
    Ends (interpolationRound template) {} (withoutInterpolations template) :=
  ends_interpolationRound_from template 0 []

end

/-!
The literals of an expression.
-/

/-- Where the loop that collects literals stands. -/
structure Collecting where
  index : Nat := 0
  found : List (List Char) := []

def literalsRound (expression : List Char) (state : Collecting) :
    Round Collecting (List (List Char)) :=
  if state.index < expression.length then
    match expression[state.index]? with
    | none => .fault
    | some c =>
      if isQuote c then
        match literalEnd? expression state.index with
        | none => .fault
        | some next => .goOn
            { index := next, found := state.found ++ [expression.extract state.index next] }
      else .goOn { state with index := state.index + 1 }
  else .stop state.found

section

variable {text source literal read : List Char} {index start size : Nat} {c quote : Char}

/-- From every index on the loop adds the literals there to those it has found. -/
theorem ends_literalsRound_from (expression : List Char) (index : Nat) :
    ∀ found, Ends (literalsRound expression) { index, found }
      (found ++ literals (expression.drop index)) := by
  induction index using index_induction expression with
  | step index ih =>
      intro found
      by_cases inText : index < expression.length
      · obtain ⟨c, here⟩ := exists_getElem? inText
        have ends := literalEnd?_here here
        rw [drop_of_getElem? here, literals]
        split
        · next isQuote =>
            have later := ih (index + 1 + literalLength c (expression.drop (index + 1)))
              (by omega) inText (found ++ [expression.extract index
                (index + 1 + literalLength c (expression.drop (index + 1)))])
            dsimp only
            rw [List.append_cons, List.drop_drop, ← extract_here here]
            refine .goOn ?_ later
            rw [literalsRound, if_pos inText, here]
            dsimp only
            rw [if_pos isQuote, ends]
        · next notQuote =>
            have later := ih (index + 1) (Nat.lt_succ_self index) inText found
            refine .goOn ?_ later
            rw [literalsRound, if_pos inText, here]
            exact if_neg notQuote
      · have isPast : expression.length ≤ index := Nat.le_of_not_lt inText
        rw [List.drop_eq_nil_of_le isPast, literals, List.append_nil]
        exact .stop (if_neg inText)

/-- The loop that collects literals ends on every expression. -/
theorem ends_literalsRound (expression : List Char) :
    Ends (literalsRound expression) {} (literals expression) :=
  ends_literalsRound_from expression 0 []

/-!
The values of class attributes.
-/

/-- Reading what a literal says comes to its end. -/
def ReadsLiteral (literal read : List Char) : Prop :=
  match literal with
  | [] => read = []
  | quote :: rest =>
    let body := if rest.getLast? = some quote then rest.dropLast else rest
    if quote = '`' then Ends (interpolationRound body) {} read else read = body

/-- Reading the value that starts at the index comes to its end. -/
def ReadsValue (source : List Char) (start : Nat) (value : Option (List Char)) : Prop :=
  match source[start]? with
  | none => value = none
  | some opener =>
    if isQuote opener then
      ∃ stop read, literalEnd? source start = some stop ∧
        ReadsLiteral (source.extract start stop) read ∧ value = some read
    else if opener = '{' then
      let expression :=
        match bracketEnd? source start with
        | some closer => source.extract (start + 1) closer
        | none => source.drop (start + 1)
      ∃ found read, Ends (literalsRound expression) {} found ∧ List.Forall₂ ReadsLiteral found read ∧
        value = if read = [] then none else some (joinWith [' '] read)
    else value = none

/-- Where the values of the class attributes start, behind the names and equals signs. -/
def valueStarts (source : List Char) : List Nat :=
  (hits classAttribute source).map fun hit => source.length - hit.2.length

/-- Reading the values of all class attributes comes to its end. -/
def ReadsValues (source : List Char) (values : List (List Char)) : Prop :=
  ∃ read, List.Forall₂ (ReadsValue source) (valueStarts source) read ∧ values = read.reduceOption

theorem forall₂_eq_iff {α β : Type} {reads : α → β → Prop} {value : α → β}
    (same : ∀ item read, reads item read ↔ read = value item) {items : List α} {read : List β} :
    List.Forall₂ reads items read ↔ read = items.map value := by
  induction items generalizing read with
  | nil => rw [List.forall₂_nil_left_iff, List.map_nil]
  | cons item items ih =>
      rw [List.forall₂_cons_left_iff, List.map_cons]
      constructor
      · rintro ⟨first, others, isFirst, areOthers, rfl⟩
        rw [(same item first).mp isFirst, ih.mp areOthers]
      · rintro rfl
        exact ⟨_, _, (same item _).mpr rfl, ih.mpr rfl, rfl⟩

theorem readsLiteral_iff (literal read : List Char) :
    ReadsLiteral literal read ↔ read = literalText literal := by
  cases literal with
  | nil => exact Iff.rfl
  | cons quote rest =>
      rw [ReadsLiteral, literalText]
      split
      · exact (ends_interpolationRound _).iff_eq
      · exact Iff.rfl

theorem groupBody_here (here : source[start]? = some '{') :
    groupBody (source.drop (start + 1)) =
      match bracketEnd? source start with
      | some closer => source.extract (start + 1) closer
      | none => source.drop (start + 1) := by
  rw [groupBody, bracketEnd?_here here rfl]
  cases groupLength? (source.drop (start + 1)) with
  | none => rfl
  | some size =>
      rw [Option.map_some]
      dsimp only
      rw [List.extract_eq_take_drop, Nat.add_sub_cancel_left]

theorem readsValue_iff (source : List Char) (start : Nat) (value : Option (List Char)) :
    ReadsValue source start value ↔ value = valueText? (source.drop start) := by
  rw [ReadsValue]
  cases here : source[start]? with
  | none =>
      rw [List.drop_eq_nil_of_le (List.getElem?_eq_none_iff.mp here)]
      exact Iff.rfl
  | some c =>
      rw [drop_of_getElem? here, valueText?]
      dsimp only
      split
      · rw [literalEnd?_here here]
        constructor
        · rintro ⟨stop, read, ends, reads, rfl⟩
          cases ends
          rw [extract_here here, readsLiteral_iff] at reads
          rw [reads]
        · rintro rfl
          refine ⟨_, _, rfl, ?_, rfl⟩
          rw [extract_here here, readsLiteral_iff]
      split
      · next isBrace =>
          subst isBrace
          rw [← groupBody_here here]
          constructor
          · rintro ⟨found, read, ends, reads, rfl⟩
            rw [(ends_literalsRound _).iff_eq] at ends
            rw [forall₂_eq_iff readsLiteral_iff] at reads
            subst ends reads
            cases literals (groupBody (source.drop (start + 1))) <;> rfl
          · rintro rfl
            refine ⟨_, _, ends_literalsRound _, (forall₂_eq_iff readsLiteral_iff).mpr rfl, ?_⟩
            cases literals (groupBody (source.drop (start + 1))) <;> rfl
      · exact Iff.rfl

/-- What a class attribute is followed by is a part of the text up to its end. -/
theorem drop_valueStart {hit : Nat × List Char} (member : hit ∈ hits classAttribute source) :
    source.drop (source.length - hit.2.length) = hit.2 := by
  obtain ⟨lead, rest, size, rfl, -, found⟩ := mem_hits member
  obtain ⟨-, name, -, gap, inner, -, -, -, rfl, -⟩ := exists_attributeText found
  rw [← List.append_assoc, List.length_append, Nat.add_sub_cancel, List.drop_left]

/-- Reading the class attributes of a script ends in one way, with their values. -/
theorem readsValues_iff (source : List Char) (values : List (List Char)) :
    ReadsValues source values ↔ values = classValues source := by
  have same : ((valueStarts source).map fun start => valueText? (source.drop start)).reduceOption =
      classValues source := by
    rw [valueStarts, List.map_map, List.reduceOption, List.filterMap_map, classValues]
    refine List.filterMap_congr fun hit member => ?_
    exact congrArg valueText? (drop_valueStart member)
  rw [ReadsValues, ← same]
  constructor
  · rintro ⟨read, reads, rfl⟩
    rw [(forall₂_eq_iff (readsValue_iff source)).mp reads]
  · rintro rfl
    exact ⟨_, (forall₂_eq_iff (readsValue_iff source)).mpr rfl, rfl⟩

end

/-- Both scanners come to an end from every index of every text, in one way and without a read
outside the text.  A literal ends behind its start, within the text, and a bracket that is closed
ends behind its start at a closing bracket.  So do the loops that call the scanners. -/
theorem scanners_end (text : List Char) :
    (∀ index < text.length, ∃ ending,
      (∀ other, SkipsLiteral text index other ↔ other = ending) ∧
        literalEnd? text index = some ending.place ∧
          index < ending.place ∧ ending.place ≤ text.length) ∧
    (∀ index, (∀ found, FindsBracket text index found ↔ found = bracketEnd? text index) ∧
      ∀ closer ∈ bracketEnd? text index,
        index < closer ∧ closer < text.length ∧ text[closer]?.any isCloser) ∧
    (∀ result, Ends (stripRound text) {} result ↔ result = withoutComments text) ∧
    (∀ style result, Ends (divideRound style text) {} result ↔ result = segments style text) ∧
    (∀ result, Ends (interpolationRound text) {} result ↔ result = withoutInterpolations text) ∧
    ∀ values, ReadsValues text values ↔ values = classValues text := by
  refine ⟨?_, ?_, ?_, ?_, ?_, readsValues_iff text⟩
  · intro index inText
    exact exists_skipsLiteral inText
  · intro index
    refine ⟨fun found => findsBracket_iff.trans eq_comm, ?_⟩
    intro closer isFound
    exact bracketEnd?_eq_some isFound
  · intro result
    exact (ends_stripRound text).iff_eq
  · intro style result
    exact (ends_divideRound style text).iff_eq
  · intro result
    exact (ends_interpolationRound text).iff_eq

/-- A bracket, a template, an interpolation and a quoted literal, none of them closed, and an
escape at the end of the text. -/
def unclosed : List Char := "(`$\x7b'\\".toList

theorem skipsLiteral_unclosed : SkipsLiteral unclosed 1 (.unended 6) := by
  have quoted : LiteralLoop unclosed '\'' 5 (.unended 6) := .goOn rfl (.stop rfl)
  have bracket : BracketLoop unclosed 0 3 none := .goOn rfl (.call rfl rfl quoted (.stop rfl))
  exact ⟨'`', rfl, .call rfl rfl bracket (.stop rfl)⟩

/-- The template ends with the text, and its bracket nowhere. -/
theorem scanners_end_unclosed :
    1 < unclosed.length ∧ (∀ other, SkipsLiteral unclosed 1 other ↔ other = .unended 6) ∧
      (∀ found, FindsBracket unclosed 0 found ↔ found = none) ∧
      ∀ result, Ends (stripRound unclosed) {} result ↔ result = unclosed := by
  have inText : 1 < unclosed.length := by decide
  have noEnd : bracketEnd? unclosed 0 = none := by decide +kernel
  have noComment : withoutComments unclosed = unclosed := by decide +kernel
  obtain ⟨skips, finds, strips, -⟩ := scanners_end unclosed
  obtain ⟨ending, isEnding, -⟩ := skips 1 inText
  have isUnended : .unended 6 = ending := (isEnding _).mp skipsLiteral_unclosed
  refine ⟨inText, ?_, ?_, ?_⟩
  · rw [isUnended]
    exact isEnding
  · rw [← noEnd]
    exact (finds 0).1
  · rw [noComment] at strips
    exact strips

end ComponentAtlas.Styles
