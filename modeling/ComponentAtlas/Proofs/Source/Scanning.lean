/-
Module: ComponentAtlas.Proofs.Source.Scanning
Purpose: The loops over literals and over brackets come to an end on every text, inside the
  text, and where the pass with a stack of open frames ends.
Main exports:
  LiteralEnd.Fits, BracketFits, LoopsEnd, loopsEnd, LiteralLoop.fits, exists_skipsLiteral,
  findsBracket_iff, bracketEnd?_eq_some
-/
import ComponentAtlas.Proofs.Source.Place

namespace ComponentAtlas.Source

section

variable {text : List Char} {quote c : Char} {index next start place : Nat} {depth : Int}
  {ending : LiteralEnd} {found : Option Nat} {opened : Nat} {below : List Frame}

/-- The loop over a literal ends where the pass over the text ends the literal: behind a closing
quote, at a line break, or with the text. -/
def LiteralEnd.Fits (text : List Char) (quote : Char) (index : Nat) : LiteralEnd → Prop
  | .closed place => endAt [.literal quote] text index = some place ∧ index < place ∧
      text[place - 1]? = some quote
  | .broken place => endAt [.literal quote] text index = some place ∧ index ≤ place ∧
      text[place]? = some '\n'
  | .unended place => endAt [.literal quote] text index = none ∧ place = text.length

/-- The loop over brackets finds the character before the place where the pass over the text ends
the last of the open brackets. -/
def BracketFits (text : List Char) (opened : Nat) (index : Nat) (found : Option Nat) : Prop :=
  endAt (List.replicate opened .bracket) text index = found.map (· + 1) ∧
    ∀ place ∈ found, index ≤ place ∧ text[place]?.any isCloser

/-!
What a round does to the end of the pass.
-/

theorem fits_of_stop (round : literalRound text quote index = .stop ending) :
    ending.Fits text quote index := by
  have isCase := literalRound_isCase text quote index
  rw [round] at isCase
  cases isCase with
  | past isPast => exact ⟨endAt_past isPast, rfl⟩
  | closed here noEscape =>
      have closes : move (.literal quote) [] quote text[index + 1]? = some { frames := [] } := by
        simp [move, noEscape]
      refine ⟨?_, Nat.lt_succ_self index, here⟩
      rw [endAt_single here closes, endAt_nil]
  | broken here isLine =>
      refine ⟨?_, le_rfl, here⟩
      have notQuote : '\n' ≠ quote := by
        rintro rfl
        cases isLine
      exact endAt_stop here (by simp [move, notQuote, isLine])

theorem endAt_of_goOn (round : literalRound text quote index = .goOn next) :
    index < next ∧ index < text.length ∧
      endAt [.literal quote] text index = endAt [.literal quote] text next := by
  have isCase := literalRound_isCase text quote index
  rw [round] at isCase
  cases isCase with
  | escape here =>
      obtain ⟨inText, -⟩ := List.getElem?_eq_some_iff.mp here
      exact ⟨by omega, inText, endAt_pair here rfl (.inl (List.cons_ne_nil _ _))⟩
  | char c here plain noBreak alone =>
      obtain ⟨inText, -⟩ := List.getElem?_eq_some_iff.mp here
      refine ⟨Nat.lt_succ_self index, inText, endAt_single here ?_⟩
      have noOpening : ¬(c = '$' ∧ quote = '`' ∧ text[index + 1]? = some '{') := by
        rintro ⟨isDollar, isTemplate, opens⟩
        exact alone isDollar isTemplate opens
      grind [move]

/-- An interpolation is passed over as a bracket, if it is closed. -/
theorem endAt_of_call (round : literalRound text quote index = .call start) :
    index < text.length ∧ start = index + 1 ∧ text[start]? = some '{' ∧
      endAt [.literal quote] text index =
        (endAt [.bracket] text (start + 1)).bind (endAt [.literal quote] text) := by
  have isCase := literalRound_isCase text quote index
  rw [round] at isCase
  cases isCase with
  | interpolation here isTemplate opens =>
      subst isTemplate
      obtain ⟨inText, -⟩ := List.getElem?_eq_some_iff.mp here
      have starts : move (.literal '`') [] '$' text[index + 1]? =
          some { frames := [.bracket, .literal '`'], pair := true } := by
        rw [opens]
        rfl
      refine ⟨inText, rfl, opens, ?_⟩
      rw [endAt_pair here starts (.inl (List.cons_ne_nil _ _))]
      exact endAt_over (fun _ => rfl) [.bracket] text (index + 2)

theorem bracketFits_of_stop (round : bracketRound text (opened + 1 : Nat) index = .stop found) :
    BracketFits text (opened + 1) index found := by
  have isCase := bracketRound_isCase text (opened + 1 : Nat) index
  rw [round] at isCase
  cases isCase with
  | past isPast => exact ⟨endAt_past isPast, by simp⟩
  | last c here closes isLast =>
      obtain rfl : opened = 0 := by omega
      refine ⟨?_, ?_⟩
      · rw [List.replicate_one, endAt_single here (move_closer closes), endAt_nil]
        rfl
      · rintro place ⟨rfl⟩
        exact ⟨le_rfl, by rw [here]; exact closes⟩

theorem endAt_of_bracketGoOn
    (round : bracketRound text (opened + 1 : Nat) index = .goOn (depth, next)) :
    ∃ fewer : Nat, depth = (fewer + 1 : Nat) ∧ index < next ∧ index < text.length ∧
      endAt (List.replicate (opened + 1) .bracket) text index =
        endAt (List.replicate (fewer + 1) .bracket) text next := by
  have isCase := bracketRound_isCase text (opened + 1 : Nat) index
  rw [round] at isCase
  cases isCase with
  | comment here stop ends =>
      obtain ⟨inText, -⟩ := List.getElem?_eq_some_iff.mp here
      have isLater := lt_of_commentEnd? ends
      exact ⟨opened, rfl, by omega, inText, endAt_comment ends _⟩
  | opener c here opens =>
      obtain ⟨inText, -⟩ := List.getElem?_eq_some_iff.mp here
      exact ⟨opened + 1, by push_cast; rfl, Nat.lt_succ_self index, inText,
        endAt_single here (move_opener opens)⟩
  | closer c here closes notLast =>
      obtain ⟨inText, -⟩ := List.getElem?_eq_some_iff.mp here
      obtain ⟨fewer, rfl⟩ : ∃ fewer, opened = fewer + 1 := Nat.exists_eq_succ_of_ne_zero (by omega)
      exact ⟨fewer, by push_cast; omega, Nat.lt_succ_self index, inText,
        endAt_single here (move_closer closes)⟩
  | code c here notQuote noOpener noCloser noComment =>
      obtain ⟨inText, -⟩ := List.getElem?_eq_some_iff.mp here
      refine ⟨opened, rfl, Nat.lt_succ_self index, inText, endAt_single here ?_⟩
      by_cases isSlash : c = '/'
      · subst isSlash
        exact move_slash (keepsSlash_of_commentEnd?_eq_none here (noComment rfl))
      · exact move_ordinary (by simp [isOrdinary, notQuote, noOpener, noCloser, isSlash])

/-- A literal is passed over, and if it is never closed no bracket is. -/
theorem endAt_of_bracketCall
    (round : bracketRound text (opened + 1 : Nat) index = .call start) :
    index < text.length ∧ start = index ∧ ∃ quote, text[index]? = some quote ∧
      endAt (List.replicate (opened + 1) .bracket) text index =
        (endAt [.literal quote] text (index + 1)).bind
          (endAt (List.replicate (opened + 1) .bracket) text) := by
  have isCase := bracketRound_isCase text (opened + 1 : Nat) index
  rw [round] at isCase
  cases isCase with
  | literal quote here isQuote =>
      obtain ⟨inText, -⟩ := List.getElem?_eq_some_iff.mp here
      refine ⟨inText, rfl, quote, here, ?_⟩
      rw [List.replicate_succ, endAt_single here (move_quote isQuote)]
      exact endAt_over (fun _ => move_ordinary rfl) [.literal quote] text (index + 1)

/-!
From every index each loop comes to its end: a round leads to a later index, and a call ends at
a later index, before the text does.
-/

theorem LiteralEnd.Fits.of_later (fits : ending.Fits text quote next) (isLater : index ≤ next)
    (same : endAt [.literal quote] text index = endAt [.literal quote] text next) :
    ending.Fits text quote index := by
  cases ending with
  | closed place => exact ⟨same.trans fits.1, isLater.trans_lt fits.2.1, fits.2.2⟩
  | broken place => exact ⟨same.trans fits.1, isLater.trans fits.2.1, fits.2.2⟩
  | unended place => exact ⟨same.trans fits.1, fits.2⟩

/-- Behind the quote of a literal its end lies further on. -/
theorem LiteralEnd.Fits.lt_place (fits : ending.Fits text quote (start + 1))
    (inText : start < text.length) : start < ending.place := by
  cases ending with
  | closed place => exact (Nat.lt_succ_self start).trans fits.2.1
  | broken place => exact fits.2.1
  | unended place => exact inText.trans_eq fits.2.symm

/-- Behind a literal that ends with the text nothing is closed any more. -/
theorem LiteralEnd.Fits.bind_eq (fits : ending.Fits text quote index) (opened : Nat) :
    (endAt [.literal quote] text index).bind (endAt (List.replicate (opened + 1) .bracket) text) =
      endAt (List.replicate (opened + 1) .bracket) text ending.place := by
  cases ending with
  | closed place => rw [fits.1, Option.bind_some, LiteralEnd.place]
  | broken place => rw [fits.1, Option.bind_some, LiteralEnd.place]
  | unended place =>
      rw [fits.1, Option.bind_none, LiteralEnd.place, fits.2]
      exact (endAt_past le_rfl).symm

theorem BracketFits.of_later {fewer : Nat} (fits : BracketFits text fewer next found)
    (isLater : index ≤ next)
    (same : endAt (List.replicate opened .bracket) text index =
      endAt (List.replicate fewer .bracket) text next) : BracketFits text opened index found :=
  ⟨same.trans fits.1, fun place isFound =>
    ⟨isLater.trans (fits.2 place isFound).1, (fits.2 place isFound).2⟩⟩

theorem literalRound_ne_fault (text : List Char) (quote : Char) (index : Nat) :
    literalRound text quote index ≠ .fault := by
  intro round
  have isCase := literalRound_isCase text quote index
  rw [round] at isCase
  cases isCase

theorem bracketRound_ne_fault (text : List Char) (depth : Int) (index : Nat) :
    bracketRound text depth index ≠ .fault := by
  intro round
  have isCase := bracketRound_isCase text depth index
  rw [round] at isCase
  cases isCase

theorem exists_of_opensAt (opens : opensAt text index) :
    ∃ c, text[index]? = some c ∧ isOpener c := by
  cases here : text[index]? with
  | none => simp [opensAt, here] at opens
  | some c =>
      rw [opensAt, here] at opens
      exact ⟨c, rfl, opens⟩

/-- The first round at a bracket counts it. -/
theorem bracketRound_opener (opens : opensAt text index) (depth : Int) :
    bracketRound text depth index = .goOn (depth + 1, index + 1) := by
  obtain ⟨c, here, isOpener⟩ := exists_of_opensAt opens
  have single := isSingle_of_isOpener isOpener
  rw [bracketRound_here here]
  simp [single.1, single.2, isOpener]

/-- Each loop comes to its end from the index, and there is where it ends. -/
structure LoopsEnd (text : List Char) (index : Nat) : Prop where
  literal : ∀ quote, ∃ ending, LiteralLoop text quote index ending ∧ ending.Fits text quote index
  bracket : ∀ opened : Nat, ∃ found, BracketLoop text (opened + 1 : Nat) index found ∧
    BracketFits text (opened + 1) index found

section

variable (later : ∀ next, index < next → index < text.length → LoopsEnd text next)

include later

theorem exists_literalLoop (quote : Char) :
    ∃ ending, LiteralLoop text quote index ending ∧ ending.Fits text quote index := by
  cases round : literalRound text quote index with
  | fault => exact absurd round (literalRound_ne_fault text quote index)
  | stop ending => exact ⟨ending, .stop round, fits_of_stop round⟩
  | goOn next =>
      obtain ⟨isLater, inText, same⟩ := endAt_of_goOn round
      obtain ⟨ending, loop, fits⟩ := (later next isLater inText).literal quote
      exact ⟨ending, .goOn round loop, fits.of_later isLater.le same⟩
  | call start =>
      obtain ⟨inText, rfl, isBrace, same⟩ := endAt_of_call round
      have opens : opensAt text (index + 1) := by
        rw [opensAt, isBrace]
        rfl
      obtain ⟨found, called, isFound, within⟩ := (later (index + 2) (by omega) inText).bracket 0
      have fromStart : BracketLoop text 0 (index + 1) found :=
        .goOn (bracketRound_opener opens 0) called
      rw [List.replicate_one] at isFound
      rw [isFound] at same
      cases found with
      | none =>
          -- The literal takes the rest of the text.
          have past : LiteralLoop text quote text.length (.unended text.length) :=
            .stop (if_neg (Nat.lt_irrefl _))
          exact ⟨_, .call round opens fromStart past, same, rfl⟩
      | some closer =>
          have isBehind := (within closer rfl).1
          have isLater : index < closer + 1 := by omega
          obtain ⟨ending, loop, fits⟩ := (later (closer + 1) isLater inText).literal quote
          exact ⟨ending, .call round opens fromStart loop, fits.of_later isLater.le same⟩

theorem exists_bracketLoop (opened : Nat) :
    ∃ found, BracketLoop text (opened + 1 : Nat) index found ∧
      BracketFits text (opened + 1) index found := by
  cases round : bracketRound text (opened + 1 : Nat) index with
  | fault => exact absurd round (bracketRound_ne_fault text _ index)
  | stop found => exact ⟨found, .stop round, bracketFits_of_stop round⟩
  | goOn state =>
      obtain ⟨depth, next⟩ := state
      obtain ⟨fewer, rfl, isLater, inText, same⟩ := endAt_of_bracketGoOn round
      obtain ⟨found, loop, fits⟩ := (later next isLater inText).bracket fewer
      exact ⟨found, .goOn round loop, fits.of_later isLater.le same⟩
  | call start =>
      obtain ⟨inText, rfl, quote, here, same⟩ := endAt_of_bracketCall round
      obtain ⟨ending, called, ends⟩ :=
        (later (start + 1) (Nat.lt_succ_self start) inText).literal quote
      have isLater : start < ending.place := ends.lt_place inText
      obtain ⟨found, loop, fits⟩ := (later ending.place isLater inText).bracket opened
      rw [ends.bind_eq] at same
      exact ⟨found, .call round here called loop, fits.of_later isLater.le same⟩

end

/-- On every text each loop comes to its end, from every index. -/
theorem loopsEnd (text : List Char) (index : Nat) : LoopsEnd text index := by
  induction index using index_induction text with
  | step index later => exact ⟨exists_literalLoop later, exists_bracketLoop later⟩

/-!
What both scanners answer.
-/

theorem literalEnd?_eq (here : text[start]? = some quote) :
    literalEnd? text start = some ((endAt [.literal quote] text (start + 1)).getD text.length) := by
  obtain ⟨inText, -⟩ := List.getElem?_eq_some_iff.mp here
  rw [literalEnd?_here here, getD_endAt _ inText]
  rfl

theorem LiteralEnd.Fits.getD_eq (fits : ending.Fits text quote index) :
    (endAt [.literal quote] text index).getD text.length = ending.place := by
  cases ending with
  | closed place => rw [fits.1, Option.getD_some, LiteralEnd.place]
  | broken place => rw [fits.1, Option.getD_some, LiteralEnd.place]
  | unended place => rw [fits.1, Option.getD_none, LiteralEnd.place, fits.2]

theorem LiteralEnd.Fits.place_le (fits : ending.Fits text quote index)
    (inText : index ≤ text.length) : ending.place ≤ text.length := by
  cases ending with
  | closed place => exact endAt_le fits.1 inText
  | broken place => exact endAt_le fits.1 inText
  | unended place => exact fits.2.le

/-- However the loop over a literal is gone through, it ends where it has to. -/
theorem LiteralLoop.fits (loop : LiteralLoop text quote index ending) :
    ending.Fits text quote index := by
  obtain ⟨other, also, fits⟩ := (loopsEnd text index).literal quote
  rw [loop.unique also]
  exact fits

/-- Skipping the literal at an index of the text ends in one way, further on in the text, and
where the pass over the text ends the literal. -/
theorem exists_skipsLiteral (inText : start < text.length) :
    ∃ ending, (∀ other, SkipsLiteral text start other ↔ other = ending) ∧
      literalEnd? text start = some ending.place ∧
        start < ending.place ∧ ending.place ≤ text.length := by
  obtain ⟨quote, here⟩ := exists_getElem? inText
  obtain ⟨ending, loop, fits⟩ := (loopsEnd text (start + 1)).literal quote
  refine ⟨ending, fun other => ⟨?_, ?_⟩, ?_, fits.lt_place inText, fits.place_le inText⟩
  · rintro ⟨quoteToo, hereToo, also⟩
    obtain rfl : quoteToo = quote := Option.some.inj (hereToo.symm.trans here)
    exact also.unique loop
  · rintro rfl
    exact ⟨quote, here, loop⟩
  · rw [literalEnd?_eq here, fits.getD_eq]

theorem bracketEnd?_of_opensAt (opens : opensAt text start) :
    (bracketEnd? text start).map (· + 1) = endAt [.bracket] text (start + 1) := by
  obtain ⟨c, here, isOpener⟩ := exists_of_opensAt opens
  rw [bracketEnd?_here here isOpener, groupLength?, endAt]
  cases closed : closing [.bracket] false (text.drop (start + 1)) with
  | none => rfl
  | some count =>
      have positive := closing_pos closed
      exact congrArg some (by dsimp only; omega)

theorem bracketEnd?_of_not_opensAt (noOpener : ¬opensAt text start) :
    bracketEnd? text start = none := by
  rw [bracketEnd?]
  cases rest : text.drop start with
  | nil => rfl
  | cons c rest =>
      have here : text[start]? = some c := by
        rw [← List.head?_drop, rest, List.head?_cons]
      rw [opensAt, here, Option.any_some] at noOpener
      exact if_neg noOpener

/-- Looking for the end of the bracket at an index ends in one way, with the bracket where the
pass over the text ends it. -/
theorem findsBracket_iff : FindsBracket text start found ↔ bracketEnd? text start = found := by
  by_cases opens : opensAt text start
  · obtain ⟨closer, later, fits⟩ := (loopsEnd text (start + 1)).bracket 0
    have loop : BracketLoop text 0 start closer := .goOn (bracketRound_opener opens 0) later
    have same : bracketEnd? text start = closer := by
      refine Option.map_injective (Nat.succ_injective) ?_
      exact (bracketEnd?_of_opensAt opens).trans fits.1
    rw [FindsBracket, if_pos opens, same]
    constructor
    · intro also
      exact loop.unique also
    · rintro rfl
      exact loop
  · rw [FindsBracket, if_neg opens, bracketEnd?_of_not_opensAt opens]
    exact eq_comm

/-- The end of a bracket lies further on in the text, at a closing bracket. -/
theorem bracketEnd?_eq_some (ends : bracketEnd? text start = some place) :
    start < place ∧ place < text.length ∧ text[place]?.any isCloser := by
  by_cases opens : opensAt text start
  · obtain ⟨found, -, isEnd, within⟩ := (loopsEnd text (start + 1)).bracket 0
    have same : found = some place := by
      refine Option.map_injective (Nat.succ_injective) ?_
      exact (isEnd.symm.trans (bracketEnd?_of_opensAt opens).symm).trans (congrArg _ ends)
    obtain ⟨isLater, closes⟩ := within place same
    refine ⟨isLater, ?_, closes⟩
    by_contra isPast
    rw [List.getElem?_eq_none (Nat.le_of_not_lt isPast)] at closes
    cases closes
  · rw [bracketEnd?_of_not_opensAt opens] at ends
    cases ends

end

end ComponentAtlas.Source
