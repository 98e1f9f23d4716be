/-
Module: ComponentAtlas.Proofs.Source.Locality
Purpose: Where a bracket or a literal ends depends on nothing that stands before it or behind
  its end.
Main exports:
  LiteralCase.eq, BracketCase.eq, LiteralEnd.IsWithin, StandsIn, standsIn_append,
  literalRound_shift_goOn, bracketRound_shift_goOn, LiteralLoop.in_other, BracketLoop.in_other,
  scanners_local
-/
import ComponentAtlas.Proofs.Source.Scanning

namespace ComponentAtlas.Source

section

variable {text sign : List Char} {quote : Char} {depth : Int} {index start place bound : Nat}
  {ending : LiteralEnd} {found : Option Nat}

/-!
What a round does is told by the characters that its case names.
-/

theorem LiteralCase.eq {round : Round Nat LiteralEnd}
    (isCase : LiteralCase text quote index round) : literalRound text quote index = round := by
  cases isCase with
  | past isPast => exact if_neg (Nat.not_lt.mpr isPast)
  | escape here => exact (literalRound_here here).trans (if_pos rfl)
  | closed here noEscape => rw [literalRound_here here, if_neg noEscape, if_pos rfl]
  | broken here isLine =>
      have notQuote : '\n' ≠ quote := by
        rintro rfl
        cases isLine
      rw [literalRound_here here]
      simp [notQuote, isLine]
  | interpolation here isTemplate opens =>
      have stands : standsAt text ['$', '{'] index := standsAt_pair.mpr ⟨here, opens⟩
      rw [literalRound_here here]
      simp [isTemplate, stands]
  | char c here plain noBreak alone =>
      have noOpening : quote = '`' → ¬standsAt text ['$', '{'] index := by
        intro isTemplate opens
        rw [standsAt_pair, here] at opens
        exact alone (Option.some.inj opens.1) isTemplate opens.2
      have noLine : ¬(c = '\n' ∧ isLineQuote quote) := by
        rintro ⟨isBreak, isLine⟩
        rw [noBreak isBreak] at isLine
        cases isLine
      rw [literalRound_here here, if_neg plain.1, if_neg plain.2]
      simp only [Bool.and_eq_true, decide_eq_true_eq]
      rw [if_neg noLine, if_neg fun both => noOpening both.1 both.2]

theorem BracketCase.eq {round : Round (Int × Nat) (Option Nat)}
    (isCase : BracketCase text depth index round) : bracketRound text depth index = round := by
  cases isCase with
  | past isPast => exact if_neg (Nat.not_lt.mpr isPast)
  | literal quote here isQuote => exact (bracketRound_here here).trans (if_pos isQuote)
  | comment here stop ends =>
      rw [bracketRound_here here]
      simp [isQuote_slash, ends]
  | opener c here opens =>
      have single := isSingle_of_isOpener opens
      rw [bracketRound_here here]
      simp [single.1, single.2, opens]
  | last c here closes isLast =>
      have single := isSingle_of_isCloser closes
      rw [bracketRound_here here, isLast]
      simp [single.1, single.2, isOpener_of_isCloser closes, closes]
  | closer c here closes notLast =>
      have single := isSingle_of_isCloser closes
      have more : ¬depth - 1 = 0 := by omega
      rw [bracketRound_here here]
      simp [single.1, single.2, isOpener_of_isCloser closes, closes, more]
  | code c here notQuote noOpener noCloser noComment =>
      have none : (if c = '/' then commentEnd? text index else none) = none :=
        ite_eq_right_iff.mpr noComment
      rw [bracketRound_here here]
      simp [notQuote, none, noOpener, noCloser]

theorem findFrom_eq_some_iff :
    findFrom text sign start = some place ↔
      standsAt text sign place ∧ (start ≤ place ∧ place < text.length) ∧
        ∀ index, start ≤ index → index < place → ¬standsAt text sign index := by
  rw [findFrom, List.find?_range'_eq_some]
  refine and_congr Iff.rfl (and_congr ?_ ?_)
  · rw [List.mem_range'_1]
    omega
  · simp only [Bool.not_eq_true', Bool.not_eq_true]

/-!
A loop that ends inside the text has read no further than its end.
-/

/-- The literal ends before the bound for a reason that stands there: its quote, or a line
break. -/
def LiteralEnd.IsWithin (bound : Nat) : LiteralEnd → Prop
  | .closed place => place ≤ bound
  | .broken place => place < bound
  | .unended _ => False

theorem LiteralLoop.lt_bound (loop : LiteralLoop text quote index ending)
    (within : ending.IsWithin bound) : index < bound := by
  have fits := loop.fits
  cases ending with
  | closed place => exact fits.2.1.trans_le within
  | broken place => exact fits.2.1.trans_lt within
  | unended place => exact within.elim

theorem LiteralLoop.isWithin (loop : LiteralLoop text quote index ending)
    (lt : ending.place < bound) (inText : bound ≤ text.length) : ending.IsWithin bound := by
  have fits := loop.fits
  cases ending with
  | closed place => exact Nat.le_of_lt lt
  | broken place => exact lt
  | unended place =>
      have isPast : place = text.length := fits.2
      exact absurd (lt.trans_le inText) (Nat.not_lt.mpr isPast.ge)

/-- A bracket that is never closed takes the rest of the text with it, and so the literal around
it. -/
theorem LiteralLoop.exists_closer
    (later : LiteralLoop text quote (found.elim text.length (· + 1)) ending)
    (within : ending.IsWithin bound) (inText : bound ≤ text.length) :
    ∃ closer, found = some closer ∧ closer + 1 < bound := by
  have lt := later.lt_bound within
  cases found with
  | none => exact absurd (lt.trans_le inText) (Nat.lt_irrefl _)
  | some closer => exact ⟨closer, rfl, lt⟩

theorem BracketLoop.le_closer {depth : Int} {index : Nat} {found : Option Nat} :
    BracketLoop text depth index found → ∀ closer ∈ found, index ≤ closer
  | .stop round => by
      intro closer isFound
      have isCase := bracketRound_isCase text depth index
      rw [round] at isCase
      cases isCase with
      | past isPast => cases isFound
      | last c here closes isLast =>
          cases isFound
          exact le_rfl
  | .goOn round later => by
      intro closer isFound
      have isLater := later.le_closer closer isFound
      have isCase := bracketRound_isCase text depth index
      rw [round] at isCase
      cases isCase with
      | comment here stop ends => have := lt_of_commentEnd? ends; omega
      | opener c here opens => omega
      | closer c here closes notLast => omega
      | code c here notQuote noOpener noCloser noComment => omega
  | .call round first called later => by
      intro closer isFound
      have isLater := later.le_closer closer isFound
      obtain ⟨inText, -⟩ := List.getElem?_eq_some_iff.mp first
      have isBehind := called.fits.lt_place inText
      have isCase := bracketRound_isCase text depth index
      rw [round] at isCase
      cases isCase with
      | literal quote here isQuote => omega

end

/-!
What is read below the bound is read in both texts.
-/

/-- Up to the bound the text stands in the other one, from an index of that one on. -/
structure StandsIn (text other : List Char) (shift bound : Nat) : Prop where
  inText : bound ≤ text.length
  same : ∀ index < bound, other[shift + index]? = text[index]?

def LiteralEnd.shifted (shift : Nat) : LiteralEnd → LiteralEnd
  | .closed place => .closed (shift + place)
  | .broken place => .broken (shift + place)
  | .unended place => .unended (shift + place)

section

variable {text other sign : List Char} {quote c : Char} {depth : Int}
  {index next start stop place shift bound : Nat} {ending : LiteralEnd} {found : Option Nat}

theorem standsIn_append (before after : List Char) (inText : bound ≤ text.length) :
    StandsIn text (before ++ text.take bound ++ after) before.length bound where
  inText := inText
  same := by
    intro index lt
    have inPart : index < (text.take bound).length := by
      rw [List.length_take]
      omega
    rw [List.append_assoc, List.getElem?_append_right (Nat.le_add_right _ _),
      Nat.add_sub_cancel_left, List.getElem?_append_left inPart, List.getElem?_take_of_lt lt]

theorem LiteralEnd.place_shifted (shift : Nat) (ending : LiteralEnd) :
    (ending.shifted shift).place = shift + ending.place := by
  cases ending <;> rfl

section

variable (stands : StandsIn text other shift bound)

include stands

theorem getElem?_shift (here : text[index]? = some c) (lt : index < bound) :
    other[shift + index]? = some c :=
  (stands.same index lt).trans here

theorem standsAt_shift (within : index + sign.length ≤ bound) :
    standsAt other sign (shift + index) ↔ standsAt text sign index := by
  have same : ∀ i < sign.length, other[shift + index + i]? = text[index + i]? := by
    intro i lt
    rw [Nat.add_assoc]
    exact stands.same (index + i) (by omega)
  rw [standsAt_iff, standsAt_iff]
  constructor
  · intro each i lt
    exact (same i lt).symm.trans (each i lt)
  · intro each i lt
    exact (same i lt).trans (each i lt)

theorem findFrom_shift (isFound : findFrom text sign start = some place)
    (nonempty : 0 < sign.length) (within : place + sign.length ≤ bound) :
    findFrom other sign (shift + start) = some (shift + place) := by
  obtain ⟨atPlace, ⟨isLater, -⟩, isFirst⟩ := findFrom_eq_some_iff.mp isFound
  have atOther := (standsAt_shift stands within).mpr atPlace
  obtain ⟨inOther, -⟩ := List.getElem?_eq_some_iff.mp (standsAt_iff.mp atOther 0 nonempty)
  refine findFrom_eq_some_iff.mpr ⟨atOther, ⟨by omega, inOther⟩, ?_⟩
  intro index isBehind isBefore
  obtain ⟨index, rfl⟩ := Nat.exists_eq_add_of_le (Nat.le_of_add_right_le isBehind)
  rw [standsAt_shift stands (by omega)]
  exact isFirst index (by omega) (by omega)

theorem commentEnd?_shift_eq_none (noComment : commentEnd? text index = none)
    (lt : index + 1 < bound) : commentEnd? other (shift + index) = none := by
  unfold commentEnd? at noComment ⊢
  split at noComment
  · cases noComment
  split at noComment
  · cases noComment
  · next noLine noBlock =>
      rw [if_neg (by rwa [standsAt_shift stands lt]), if_neg (by rwa [standsAt_shift stands lt])]

/-- A comment that ends before the bound ends at what is searched for. -/
theorem commentEnd?_shift (ends : commentEnd? text index = some stop) (lt : stop < bound) :
    commentEnd? other (shift + index) = some (shift + stop) := by
  have isLater := lt_of_commentEnd? ends
  have inText := stands.inText
  have mark : index + 2 ≤ bound := by omega
  unfold commentEnd? at ends ⊢
  split at ends
  · next isLine =>
      rw [if_pos ((standsAt_shift stands mark).mpr isLine)]
      cases isFound : findFrom text ['\n'] index with
      | none =>
          rw [isFound, Option.getD_none] at ends
          cases ends
          omega
      | some place =>
          rw [isFound, Option.getD_some] at ends
          cases ends
          rw [findFrom_shift stands isFound Nat.one_pos lt, Option.getD_some]
  · next noLine =>
      rw [if_neg (by rwa [standsAt_shift stands mark])]
      split at ends
      · next isBlock =>
          rw [if_pos ((standsAt_shift stands mark).mpr isBlock)]
          cases isFound : findFrom text ['*', '/'] (index + 2) with
          | none =>
              rw [isFound, Option.map_none, Option.getD_none] at ends
              cases ends
              omega
          | some place =>
              rw [isFound, Option.map_some, Option.getD_some] at ends
              cases ends
              rw [Nat.add_assoc, findFrom_shift stands isFound Nat.two_pos lt.le]
              rfl
      · cases ends

theorem opensAt_shift (opens : opensAt text index) (lt : index < bound) :
    opensAt other (shift + index) := by
  rw [opensAt, stands.same index lt]
  exact opens

/-!
A round that leads to an index below the bound is the same round in the other text.
-/

theorem literalRound_shift_stop (round : literalRound text quote index = .stop ending)
    (within : ending.IsWithin bound) :
    literalRound other quote (shift + index) = .stop (ending.shifted shift) := by
  have isCase := literalRound_isCase text quote index
  rw [round] at isCase
  cases isCase with
  | past isPast => exact within.elim
  | closed here noEscape =>
      exact (LiteralCase.closed (getElem?_shift stands here within) noEscape).eq
  | broken here isLine =>
      exact (LiteralCase.broken (getElem?_shift stands here within) isLine).eq

theorem literalRound_shift_goOn (round : literalRound text quote index = .goOn next)
    (lt : next < bound) : literalRound other quote (shift + index) = .goOn (shift + next) := by
  have isCase := literalRound_isCase text quote index
  rw [round] at isCase
  cases isCase with
  | escape here => exact (LiteralCase.escape (getElem?_shift stands here (by omega))).eq
  | char c here plain noBreak alone =>
      have isNext : other[shift + index + 1]? = text[index + 1]? := stands.same (index + 1) lt
      refine (LiteralCase.char c (getElem?_shift stands here (by omega)) plain noBreak ?_).eq
      rw [isNext]
      exact alone

theorem literalRound_shift_call (round : literalRound text quote index = .call start)
    (lt : start < bound) : literalRound other quote (shift + index) = .call (shift + start) := by
  have isCase := literalRound_isCase text quote index
  rw [round] at isCase
  cases isCase with
  | interpolation here isTemplate brace =>
      have isNext : other[shift + (index + 1)]? = some '{' := getElem?_shift stands brace lt
      exact (LiteralCase.interpolation (getElem?_shift stands here (by omega)) isTemplate isNext).eq

theorem bracketRound_shift_stop {closer : Nat}
    (round : bracketRound text depth index = .stop (some closer)) (lt : closer < bound) :
    bracketRound other depth (shift + index) = .stop (some (shift + closer)) := by
  have isCase := bracketRound_isCase text depth index
  rw [round] at isCase
  cases isCase with
  | last c here closes isLast =>
      exact (BracketCase.last c (getElem?_shift stands here lt) closes isLast).eq

theorem bracketRound_shift_goOn {fewer : Int}
    (round : bracketRound text depth index = .goOn (fewer, next)) (lt : next < bound) :
    bracketRound other depth (shift + index) = .goOn (fewer, shift + next) := by
  have isCase := bracketRound_isCase text depth index
  rw [round] at isCase
  cases isCase with
  | comment here stop ends =>
      have isBehind := lt_of_commentEnd? ends
      have endsToo := commentEnd?_shift stands ends lt
      exact (BracketCase.comment (getElem?_shift stands here (by omega)) _ endsToo).eq
  | opener c here opens =>
      exact (BracketCase.opener c (getElem?_shift stands here (by omega)) opens).eq
  | closer c here closes notLast =>
      exact (BracketCase.closer c (getElem?_shift stands here (by omega)) closes notLast).eq
  | code c here notQuote noOpener noCloser noComment =>
      have hereToo := getElem?_shift stands here (by omega)
      refine (BracketCase.code c hereToo notQuote noOpener noCloser ?_).eq
      intro isSlash
      exact commentEnd?_shift_eq_none stands (noComment isSlash) lt

theorem bracketRound_shift_call (round : bracketRound text depth index = .call start)
    (lt : start < bound) : bracketRound other depth (shift + index) = .call (shift + start) := by
  have isCase := bracketRound_isCase text depth index
  rw [round] at isCase
  cases isCase with
  | literal quote here isQuote =>
      exact (BracketCase.literal quote (getElem?_shift stands here lt) isQuote).eq

mutual

/-- A literal that ends before the bound ends at the same place of the other text. -/
theorem LiteralLoop.in_other {quote : Char} {index : Nat} {ending : LiteralEnd} :
    LiteralLoop text quote index ending → ending.IsWithin bound →
      LiteralLoop other quote (shift + index) (ending.shifted shift)
  | .stop round => by
      intro within
      exact .stop (literalRound_shift_stop stands round within)
  | .goOn round later => by
      intro within
      have further := later.in_other within
      exact .goOn (literalRound_shift_goOn stands round (later.lt_bound within)) further
  | .call round opens called later => by
      intro within
      have calledToo := called.in_other
      have further := later.in_other within
      obtain ⟨closer, rfl, isBefore⟩ := later.exists_closer within stands.inText
      have isBehind := called.le_closer closer rfl
      have roundToo := literalRound_shift_call stands round (by omega)
      have opensToo := opensAt_shift stands opens (by omega)
      exact .call roundToo opensToo (calledToo closer rfl (by omega)) further

/-- A bracket that is closed before the bound is closed at the same place of the other text. -/
theorem BracketLoop.in_other {depth : Int} {index : Nat} {found : Option Nat} :
    BracketLoop text depth index found → ∀ closer ∈ found, closer < bound →
      BracketLoop other depth (shift + index) (some (shift + closer))
  | .stop round => by
      rintro closer ⟨⟩ lt
      exact .stop (bracketRound_shift_stop stands round lt)
  | .goOn round later => by
      intro closer isFound lt
      have isBehind := later.le_closer closer isFound
      have further := later.in_other closer isFound lt
      exact .goOn (bracketRound_shift_goOn stands round (by omega)) further
  | .call round first called later => by
      intro closer isFound lt
      have isBehind := later.le_closer closer isFound
      have within := called.isWithin (isBehind.trans_lt lt) stands.inText
      have isBefore := called.lt_bound within
      have calledToo := called.in_other within
      have further := later.in_other closer isFound lt
      rw [← LiteralEnd.place_shifted] at further
      have roundToo := bracketRound_shift_call stands round (by omega)
      exact .call roundToo (getElem?_shift stands first (by omega)) calledToo further

end

theorem SkipsLiteral.in_other (skips : SkipsLiteral text start (.closed stop))
    (within : stop ≤ bound) : SkipsLiteral other (shift + start) (.closed (shift + stop)) := by
  obtain ⟨quote, here, loop⟩ := skips
  have isBefore : start + 1 < bound := loop.lt_bound within
  exact ⟨quote, getElem?_shift stands here (by omega), loop.in_other stands within⟩

theorem FindsBracket.in_other {closer : Nat} (finds : FindsBracket text start (some closer))
    (lt : closer < bound) : FindsBracket other (shift + start) (some (shift + closer)) := by
  unfold FindsBracket at finds ⊢
  split at finds
  · next opens =>
      have isLater := finds.le_closer closer rfl
      rw [if_pos (opensAt_shift stands opens (by omega))]
      exact finds.in_other stands closer rfl lt
  · cases finds

end

theorem SkipsLiteral.end_eq (skips : SkipsLiteral text start ending) :
    literalEnd? text start = some ending.place := by
  obtain ⟨quote, here, loop⟩ := skips
  rw [literalEnd?_eq here, loop.fits.getD_eq]

end

/-- The scanners are local.  A bracket that is closed is closed at the same place, and a literal
that ends behind its quote ends there too, in whatever text the part up to that place stands. -/
theorem scanners_local (text : List Char) (start : Nat) :
    (∀ closer, bracketEnd? text start = some closer → ∀ before after,
      bracketEnd? (before ++ text.take (closer + 1) ++ after) (before.length + start) =
        some (before.length + closer)) ∧
    ∀ stop, SkipsLiteral text start (.closed stop) →
      literalEnd? text start = some stop ∧ ∀ before after,
        SkipsLiteral (before ++ text.take stop ++ after) (before.length + start)
          (.closed (before.length + stop)) ∧
        literalEnd? (before ++ text.take stop ++ after) (before.length + start) =
          some (before.length + stop) := by
  constructor
  · intro closer ends before after
    obtain ⟨-, inText, -⟩ := bracketEnd?_eq_some ends
    have stands := standsIn_append before after inText
    have finds := findsBracket_iff.mpr ends
    exact findsBracket_iff.mp (finds.in_other stands (Nat.lt_succ_self closer))
  · intro stop skips
    refine ⟨skips.end_eq, fun before after => ?_⟩
    obtain ⟨quote, here, loop⟩ := skips
    obtain ⟨inText, -⟩ := List.getElem?_eq_some_iff.mp here
    have stands := standsIn_append before after (loop.fits.place_le inText)
    have skipsToo := SkipsLiteral.in_other stands ⟨quote, here, loop⟩ le_rfl
    exact ⟨skipsToo, skipsToo.end_eq⟩

/-- A template with a closing brace in a literal in its interpolation, and a semicolon. -/
def braceTemplate : List Char := "`$\x7b'\x7d'\x7d`;".toList

theorem skipsLiteral_braceTemplate : SkipsLiteral braceTemplate 0 (.closed 8) := by
  have quoted : LiteralLoop braceTemplate '\'' 4 (.closed 6) := .goOn rfl (.stop rfl)
  have bracket : BracketLoop braceTemplate 0 2 (some 6) :=
    .goOn rfl (.call rfl rfl quoted (.stop rfl))
  exact ⟨'`', rfl, .call rfl rfl bracket (.stop rfl)⟩

/-- Neither what stands around the template nor the semicolon behind it matters. -/
theorem scanners_local_braceTemplate :
    (bracketEnd? braceTemplate 2 = some 6 ∧ ∀ before after,
      bracketEnd? (before ++ braceTemplate.take 7 ++ after) (before.length + 2) =
        some (before.length + 6)) ∧
    SkipsLiteral braceTemplate 0 (.closed 8) ∧ ∀ before after,
      literalEnd? (before ++ braceTemplate.take 8 ++ after) before.length =
        some (before.length + 8) := by
  have ends : bracketEnd? braceTemplate 2 = some 6 := by decide +kernel
  refine ⟨⟨ends, (scanners_local braceTemplate 2).1 6 ends⟩, skipsLiteral_braceTemplate, ?_⟩
  intro before after
  exact (((scanners_local braceTemplate 0).2 8 skipsLiteral_braceTemplate).2 before after).2

end ComponentAtlas.Source
