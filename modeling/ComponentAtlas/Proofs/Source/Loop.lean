/-
Module: ComponentAtlas.Proofs.Source.Loop
Purpose: The scanners of literals and of brackets as two loops over the indexes of a text
  that call each other.
Main exports:
  Round, standsAt, findFrom, commentEnd?, LiteralEnd, literalRound, bracketRound, LiteralLoop,
  BracketLoop, LiteralLoop.unique, BracketLoop.unique, LiteralCase, literalRound_isCase,
  BracketCase, bracketRound_isCase
-/
import ComponentAtlas.Source.Enclosure
import Mathlib.Data.List.Basic

namespace ComponentAtlas.Source

/-!
The end of a bracket or of a literal is found by one pass over the text with a stack of what is
open.  It can also be told without the stack: by a loop for literals and a loop for brackets,
each of which calls the other one when it meets what the other one knows.  A round of a loop
looks at the text at one index, and nothing but the rounds themselves says that the indexes
stay inside the text or that the loops come to an end.  After a fault there is no way on, so a
loop that comes to its end has not read outside the text.
-/

/-- What a round of a loop leads to. -/
inductive Round (σ ρ : Type) where
  /-- The next round, in another state. -/
  | goOn (state : σ)
  /-- The end of the loop. -/
  | stop (result : ρ)
  /-- The other scanner is called for what starts at the index. -/
  | call (start : Nat)
  /-- A character is read at an index where the text has none. -/
  | fault
deriving Repr, DecidableEq

/-- The sign stands in the text at the index. -/
def standsAt (text sign : List Char) (index : Nat) : Bool := sign.isPrefixOf (text.drop index)

/-- The first place from an index on at which the sign stands. -/
def findFrom (text sign : List Char) (start : Nat) : Option Nat :=
  (List.range' start (text.length - start)).find? (standsAt text sign)

/-- Where the comment ends that starts at the index: at its line break, behind its closing
mark, or with the text. -/
def commentEnd? (text : List Char) (index : Nat) : Option Nat :=
  if standsAt text ['/', '/'] index then
    some ((findFrom text ['\n'] index).getD text.length)
  else if standsAt text ['/', '*'] index then
    some (((findFrom text ['*', '/'] (index + 2)).map (· + 2)).getD text.length)
  else none

/-- How the loop over a literal ends, and at which index. -/
inductive LiteralEnd where
  /-- Just behind the closing quote of the literal. -/
  | closed (place : Nat)
  /-- At a line break that ends the literal without belonging to it. -/
  | broken (place : Nat)
  /-- With the text. -/
  | unended (place : Nat)
deriving Repr, DecidableEq

def LiteralEnd.place : LiteralEnd → Nat
  | .closed place => place
  | .broken place => place
  | .unended place => place

/-- One round of the loop over a literal that the quote opened. -/
def literalRound (text : List Char) (quote : Char) (index : Nat) : Round Nat LiteralEnd :=
  if index < text.length then
    match text[index]? with
    | none => .fault
    | some c =>
      if c = '\\' then .goOn (index + 2)
      else if c = quote then .stop (.closed (index + 1))
      else if c = '\n' && isLineQuote quote then .stop (.broken index)
      else if quote = '`' && standsAt text ['$', '{'] index then .call (index + 1)
      else .goOn (index + 1)
  else .stop (.unended text.length)

/-- One round of the loop over brackets, with the number of those that are open. -/
def bracketRound (text : List Char) (depth : Int) (index : Nat) :
    Round (Int × Nat) (Option Nat) :=
  if index < text.length then
    match text[index]? with
    | none => .fault
    | some c =>
      if isQuote c then .call index
      else
        match if c = '/' then commentEnd? text index else none with
        | some next => .goOn (depth, next)
        | none =>
          if isOpener c then .goOn (depth + 1, index + 1)
          else if isCloser c then
            if depth - 1 = 0 then .stop (some index) else .goOn (depth - 1, index + 1)
          else .goOn (depth, index + 1)
  else .stop none

/-- A bracket opens at the index. -/
def opensAt (text : List Char) (index : Nat) : Bool := text[index]?.any isOpener

mutual

/-- The loop over a literal comes to its end. -/
inductive LiteralLoop (text : List Char) : (quote : Char) → (index : Nat) → LiteralEnd → Prop where
  | stop {quote : Char} {index : Nat} {ending : LiteralEnd}
      (round : literalRound text quote index = .stop ending) :
      LiteralLoop text quote index ending
  | goOn {quote : Char} {index next : Nat} {ending : LiteralEnd}
      (round : literalRound text quote index = .goOn next)
      (later : LiteralLoop text quote next ending) : LiteralLoop text quote index ending
  -- A bracket that is never closed takes the rest of the text with it.
  | call {quote : Char} {index start : Nat} {found : Option Nat} {ending : LiteralEnd}
      (round : literalRound text quote index = .call start) (opens : opensAt text start)
      (called : BracketLoop text 0 start found)
      (later : LiteralLoop text quote (found.elim text.length (· + 1)) ending) :
      LiteralLoop text quote index ending

/-- The loop over brackets comes to its end. -/
inductive BracketLoop (text : List Char) : (depth : Int) → (index : Nat) → Option Nat → Prop where
  | stop {depth : Int} {index : Nat} {found : Option Nat}
      (round : bracketRound text depth index = .stop found) : BracketLoop text depth index found
  | goOn {depth fewer : Int} {index next : Nat} {found : Option Nat}
      (round : bracketRound text depth index = .goOn (fewer, next))
      (later : BracketLoop text fewer next found) : BracketLoop text depth index found
  | call {depth : Int} {index start : Nat} {quote : Char} {ending : LiteralEnd} {found : Option Nat}
      (round : bracketRound text depth index = .call start) (first : text[start]? = some quote)
      (called : LiteralLoop text quote (start + 1) ending)
      (later : BracketLoop text depth ending.place found) : BracketLoop text depth index found

end

/-- Skipping the literal that starts at the index comes to its end. -/
def SkipsLiteral (text : List Char) (start : Nat) (ending : LiteralEnd) : Prop :=
  ∃ quote, text[start]? = some quote ∧ LiteralLoop text quote (start + 1) ending

/-- Looking for the end of the bracket at the index comes to its end. -/
def FindsBracket (text : List Char) (start : Nat) (found : Option Nat) : Prop :=
  if opensAt text start then BracketLoop text 0 start found else found = none

section

variable {text : List Char} {quote : Char} {depth fewer : Int} {index next start : Nat}
  {ending other : LiteralEnd} {found also : Option Nat}

/-!
A round leads to one thing only, so there is one way on from each state.
-/

theorem LiteralLoop.eq_of_stop (loop : LiteralLoop text quote index other)
    (round : literalRound text quote index = .stop ending) : ending = other := by
  cases loop <;> simp_all

theorem LiteralLoop.of_goOn (loop : LiteralLoop text quote index other)
    (round : literalRound text quote index = .goOn next) : LiteralLoop text quote next other := by
  cases loop <;> simp_all

theorem LiteralLoop.of_call (loop : LiteralLoop text quote index other)
    (round : literalRound text quote index = .call start) :
    ∃ found, BracketLoop text 0 start found ∧
      LiteralLoop text quote (found.elim text.length (· + 1)) other := by
  cases loop with
  | stop same => simp_all
  | goOn same _ => simp_all
  | call same _ called later =>
      rw [round] at same
      cases same
      exact ⟨_, called, later⟩

theorem BracketLoop.eq_of_stop (loop : BracketLoop text depth index also)
    (round : bracketRound text depth index = .stop found) : found = also := by
  cases loop <;> simp_all

theorem BracketLoop.of_goOn (loop : BracketLoop text depth index also)
    (round : bracketRound text depth index = .goOn (fewer, next)) :
    BracketLoop text fewer next also := by
  cases loop <;> simp_all

theorem BracketLoop.of_call (loop : BracketLoop text depth index also)
    (round : bracketRound text depth index = .call start) (first : text[start]? = some quote) :
    ∃ ending, LiteralLoop text quote (start + 1) ending ∧
      BracketLoop text depth ending.place also := by
  cases loop with
  | stop same => simp_all
  | goOn same _ => simp_all
  | call same firstToo called later =>
      rw [round] at same
      cases same
      rw [first] at firstToo
      cases firstToo
      exact ⟨_, called, later⟩

mutual

/-- The loop over a literal ends in one way at most. -/
theorem LiteralLoop.unique {quote : Char} {index : Nat} {ending other : LiteralEnd} :
    LiteralLoop text quote index ending → LiteralLoop text quote index other → ending = other
  | .stop round, loop => loop.eq_of_stop round
  | .goOn round later, loop => later.unique (loop.of_goOn round)
  | .call round _ called later, loop => by
      obtain ⟨found, calledToo, further⟩ := loop.of_call round
      cases called.unique calledToo
      exact later.unique further

/-- The loop over brackets ends in one way at most. -/
theorem BracketLoop.unique {depth : Int} {index : Nat} {found also : Option Nat} :
    BracketLoop text depth index found → BracketLoop text depth index also → found = also
  | .stop round, loop => loop.eq_of_stop round
  | .goOn round later, loop => later.unique (loop.of_goOn round)
  | .call round first called later, loop => by
      obtain ⟨ending, calledToo, further⟩ := loop.of_call round first
      cases called.unique calledToo
      exact later.unique further

end

/-!
What a round does, by what it reads.
-/

/-- What a round of the loop over a literal leads to, and why. -/
inductive LiteralCase (text : List Char) (quote : Char) (index : Nat) :
    Round Nat LiteralEnd → Prop where
  | past (isPast : text.length ≤ index) :
      LiteralCase text quote index (.stop (.unended text.length))
  | escape (here : text[index]? = some '\\') : LiteralCase text quote index (.goOn (index + 2))
  | closed (here : text[index]? = some quote) (noEscape : quote ≠ '\\') :
      LiteralCase text quote index (.stop (.closed (index + 1)))
  | broken (here : text[index]? = some '\n') (isLine : isLineQuote quote) :
      LiteralCase text quote index (.stop (.broken index))
  | interpolation (here : text[index]? = some '$') (isTemplate : quote = '`')
      (opens : text[index + 1]? = some '{') : LiteralCase text quote index (.call (index + 1))
  | char (c : Char) (here : text[index]? = some c) (plain : c ≠ '\\' ∧ c ≠ quote)
      (noBreak : c = '\n' → isLineQuote quote = false)
      (alone : c = '$' → quote = '`' → text[index + 1]? ≠ some '{') :
      LiteralCase text quote index (.goOn (index + 1))

/-- What a round of the loop over brackets leads to, and why. -/
inductive BracketCase (text : List Char) (depth : Int) (index : Nat) :
    Round (Int × Nat) (Option Nat) → Prop where
  | past (isPast : text.length ≤ index) : BracketCase text depth index (.stop none)
  | literal (quote : Char) (here : text[index]? = some quote) (isQuote : isQuote quote) :
      BracketCase text depth index (.call index)
  | comment (here : text[index]? = some '/') (stop : Nat) (ends : commentEnd? text index = some stop) :
      BracketCase text depth index (.goOn (depth, stop))
  | opener (c : Char) (here : text[index]? = some c) (opens : isOpener c) :
      BracketCase text depth index (.goOn (depth + 1, index + 1))
  | last (c : Char) (here : text[index]? = some c) (closes : isCloser c) (isLast : depth = 1) :
      BracketCase text depth index (.stop (some index))
  | closer (c : Char) (here : text[index]? = some c) (closes : isCloser c) (notLast : depth ≠ 1) :
      BracketCase text depth index (.goOn (depth - 1, index + 1))
  | code (c : Char) (here : text[index]? = some c) (notQuote : isQuote c = false)
      (noOpener : isOpener c = false) (noCloser : isCloser c = false)
      (noComment : c = '/' → commentEnd? text index = none) :
      BracketCase text depth index (.goOn (depth, index + 1))

/-- The sign stands at the index just when each of its characters stands in its place. -/
theorem standsAt_iff {sign : List Char} :
    standsAt text sign index ↔ ∀ i, (within : i < sign.length) → text[index + i]? = some sign[i] := by
  rw [standsAt, List.isPrefixOf_iff_prefix, List.prefix_iff_getElem?]
  simp only [List.getElem?_drop]

theorem standsAt_pair {c d : Char} :
    standsAt text [c, d] index ↔ text[index]? = some c ∧ text[index + 1]? = some d := by
  rw [standsAt_iff]
  constructor
  · intro each
    exact ⟨each 0 (by simp), each 1 (by simp)⟩
  · rintro ⟨first, second⟩ i within
    match i with
    | 0 => exact first
    | 1 => exact second

theorem exists_getElem? (inText : index < text.length) : ∃ c, text[index]? = some c :=
  ⟨_, List.getElem?_eq_getElem inText⟩

theorem literalRound_here {c : Char} (here : text[index]? = some c) :
    literalRound text quote index =
      if c = '\\' then .goOn (index + 2)
      else if c = quote then .stop (.closed (index + 1))
      else if c = '\n' && isLineQuote quote then .stop (.broken index)
      else if quote = '`' && standsAt text ['$', '{'] index then .call (index + 1)
      else .goOn (index + 1) := by
  obtain ⟨inText, -⟩ := List.getElem?_eq_some_iff.mp here
  rw [literalRound, if_pos inText, here]

theorem bracketRound_here {c : Char} (here : text[index]? = some c) :
    bracketRound text depth index =
      if isQuote c then .call index
      else
        match if c = '/' then commentEnd? text index else none with
        | some next => .goOn (depth, next)
        | none =>
          if isOpener c then .goOn (depth + 1, index + 1)
          else if isCloser c then
            if depth - 1 = 0 then .stop (some index) else .goOn (depth - 1, index + 1)
          else .goOn (depth, index + 1) := by
  obtain ⟨inText, -⟩ := List.getElem?_eq_some_iff.mp here
  rw [bracketRound, if_pos inText, here]

theorem literalRound_isCase (text : List Char) (quote : Char) (index : Nat) :
    LiteralCase text quote index (literalRound text quote index) := by
  by_cases inText : index < text.length
  · obtain ⟨c, here⟩ := exists_getElem? inText
    rw [literalRound_here here]
    split
    · next isEscape => exact .escape (isEscape ▸ here)
    split
    · next notEscape isQuote => exact .closed (isQuote ▸ here) (isQuote ▸ notEscape)
    split
    · next isBreak =>
        simp only [Bool.and_eq_true, decide_eq_true_eq] at isBreak
        exact .broken (isBreak.1 ▸ here) isBreak.2
    split
    · next opens =>
        simp only [Bool.and_eq_true, decide_eq_true_eq, standsAt_pair] at opens
        exact .interpolation opens.2.1 opens.1 opens.2.2
    · next notEscape notQuote noBreak noOpening =>
        simp only [Bool.and_eq_true, decide_eq_true_eq, standsAt_pair] at noBreak noOpening
        refine .char c here ⟨notEscape, notQuote⟩ ?_ ?_
        · intro isBreak
          simpa [isBreak] using noBreak
        · rintro rfl isTemplate opens
          exact noOpening ⟨isTemplate, here, opens⟩
  · rw [literalRound, if_neg inText]
    exact .past (Nat.le_of_not_lt inText)

theorem bracketRound_isCase (text : List Char) (depth : Int) (index : Nat) :
    BracketCase text depth index (bracketRound text depth index) := by
  by_cases inText : index < text.length
  · obtain ⟨c, here⟩ := exists_getElem? inText
    rw [bracketRound_here here]
    split
    · next isQuote => exact .literal c here isQuote
    split
    · next stop isComment =>
        have ⟨isSlash, ends⟩ : c = '/' ∧ commentEnd? text index = some stop := by
          simpa [Option.ite_none_right_eq_some] using isComment
        exact .comment (isSlash ▸ here) stop ends
    · next notQuote _ noComment =>
        split
        · next opens => exact .opener c here opens
        split
        · next closes =>
            split
            · next isLast => exact .last c here closes (by omega)
            · next notLast => exact .closer c here closes (by omega)
        · next noOpener noCloser =>
            refine .code c here (by simpa using notQuote) (by simpa using noOpener)
              (by simpa using noCloser) fun isSlash => ?_
            rwa [if_pos isSlash] at noComment
  · rw [bracketRound, if_neg inText]
    exact .past (Nat.le_of_not_lt inText)

end

end ComponentAtlas.Source
