/-
Module: ComponentAtlas.Proofs.Source.Rounds
Purpose: The removal of comments and the division of a script as loops over the indexes of the
  text, which end on every text with what the recursion over the lexemes gives.
Main exports:
  Ends, Ends.iff_eq, LexemeAt, exists_lexemeAt, atLexeme, stripRound, ends_stripRound,
  divideRound, ends_divideRound
-/
import ComponentAtlas.Proofs.Source.Cutting
import ComponentAtlas.Proofs.Source.Scanning

namespace ComponentAtlas.Source

open ComponentAtlas.Text

/-- The loop with these rounds comes to its end from the state. -/
inductive Ends {σ ρ : Type} (round : σ → Round σ ρ) : σ → ρ → Prop where
  | stop {state : σ} {result : ρ} (stops : round state = .stop result) :
      Ends round state result
  | goOn {state next : σ} {result : ρ} (goesOn : round state = .goOn next)
      (later : Ends round next result) : Ends round state result

/-- A loop that comes to its end does so in one way. -/
theorem Ends.iff_eq {σ ρ : Type} {round : σ → Round σ ρ} {state : σ} {result other : ρ}
    (ends : Ends round state result) : Ends round state other ↔ other = result := by
  constructor
  · intro also
    induction ends with
    | stop stops => cases also <;> simp_all
    | goOn goesOn _ ih =>
        refine ih ?_
        cases also <;> simp_all
  · rintro rfl
    exact ends

/-!
Lexemes by index.
-/

/-- The lexeme that starts at an index of the text, and where it ends. -/
inductive LexemeAt (text : List Char) (index : Nat) : Lexeme → Nat → Prop where
  | literal (quote : Char) (here : text[index]? = some quote) (isQuote : isQuote quote) (stop : Nat)
      (ends : literalEnd? text index = some stop) :
      LexemeAt text index (.literal (text.extract index stop)) stop
  | comment (here : text[index]? = some '/') (stop : Nat)
      (ends : commentEnd? text index = some stop) :
      LexemeAt text index (.comment (text.extract index stop)) stop
  | code (c : Char) (here : text[index]? = some c) (notQuote : isQuote c = false)
      (noComment : c = '/' → commentEnd? text index = none) :
      LexemeAt text index (.code c) (index + 1)

section

variable {text : List Char} {index start middle stop : Nat} {part : Lexeme} {c : Char}

theorem commentEnd?_eq (here : text[index]? = some '/') :
    commentEnd? text index = (commentLength? (text.drop (index + 1))).map (index + 1 + ·) := by
  cases ends : commentEnd? text index with
  | none =>
      have alone := keepsSlash_of_commentEnd?_eq_none here ends
      rw [← List.head?_drop] at alone
      rw [commentLength?_of_keepsSlash alone, Option.map_none]
  | some stop =>
      obtain ⟨mark, frame, isMark, -, next, rfl⟩ := commentEnd?_eq_some ends
      obtain ⟨nextInText, -⟩ := List.getElem?_eq_some_iff.mp next
      have inText : index + 2 ≤ text.length := nextInText
      rw [drop_of_getElem? next, commentLength?_of_mark isMark, getD_endAt _ inText,
        Option.map_some, ← Nat.add_assoc (index + 1)]

theorem extract_self (text : List Char) (index : Nat) : text.extract index index = [] := by
  rw [List.extract_eq_take_drop, Nat.sub_self, List.take_zero]

theorem extract_append (first : start ≤ middle) (second : middle ≤ stop) :
    text.extract start middle ++ text.extract middle stop = text.extract start stop := by
  obtain ⟨one, rfl⟩ := Nat.exists_eq_add_of_le first
  obtain ⟨two, rfl⟩ := Nat.exists_eq_add_of_le second
  rw [Nat.add_assoc, List.extract_eq_take_drop, List.extract_eq_take_drop,
    List.extract_eq_take_drop, Nat.add_sub_cancel_left, Nat.add_sub_cancel_left, ← Nat.add_assoc,
    Nat.add_sub_cancel_left, List.take_add, List.drop_drop]

theorem extract_here (here : text[index]? = some c) (size : Nat) :
    text.extract index (index + 1 + size) = c :: (text.drop (index + 1)).take size := by
  rw [List.extract_eq_take_drop, drop_of_getElem? here, Nat.add_assoc, Nat.add_sub_cancel_left,
    Nat.add_comm, List.take_succ_cons]

theorem extract_past (isPast : text.length ≤ stop) : text.extract start stop = text.drop start := by
  rw [List.extract_eq_take_drop, List.take_of_length_le]
  rw [List.length_drop]
  omega

/-- The lexemes of the text from an index on are the one that starts there and those behind it. -/
theorem exists_lexemeAt (inText : index < text.length) :
    ∃ part stop, LexemeAt text index part stop ∧
      lexemes (text.drop index) = part :: lexemes (text.drop stop) := by
  obtain ⟨c, here⟩ := exists_getElem? inText
  rw [drop_of_getElem? here, lexemes]
  split
  · next isQuote =>
      refine ⟨_, _, .literal c here isQuote _ (literalEnd?_here here), ?_⟩
      dsimp only
      rw [extract_here here, List.drop_drop]
  · next notQuote =>
      split
      · next size isComment =>
          obtain ⟨isSlash, found⟩ : c = '/' ∧ commentLength? (text.drop (index + 1)) = some size := by
            simpa [Option.ite_none_right_eq_some] using isComment
          subst isSlash
          have ends : commentEnd? text index = some (index + 1 + size) := by
            rw [commentEnd?_eq here, found, Option.map_some]
          refine ⟨_, _, .comment here _ ends, ?_⟩
          rw [extract_here here, List.drop_drop]
      · next noComment =>
          refine ⟨_, _, .code c here (by simpa using notQuote) fun isSlash => ?_, rfl⟩
          subst isSlash
          rw [if_pos rfl] at noComment
          rw [commentEnd?_eq here, noComment, Option.map_none]

theorem LexemeAt.lt (isPart : LexemeAt text index part stop) :
    index < stop ∧ stop ≤ text.length := by
  cases isPart with
  | literal quote here isQuote stop ends =>
      obtain ⟨inText, -⟩ := List.getElem?_eq_some_iff.mp here
      obtain ⟨ending, -, same, isLater, within⟩ := exists_skipsLiteral inText
      obtain rfl : stop = ending.place := Option.some.inj (ends.symm.trans same)
      exact ⟨isLater, within⟩
  | comment here stop ends =>
      have isLater := lt_of_commentEnd? ends
      exact ⟨by omega, isLater.2⟩
  | code c here notQuote noComment =>
      obtain ⟨inText, -⟩ := List.getElem?_eq_some_iff.mp here
      exact ⟨Nat.lt_succ_self index, inText⟩

theorem LexemeAt.text_eq (isPart : LexemeAt text index part stop) :
    part.text = text.extract index stop := by
  cases isPart with
  | literal quote here isQuote stop ends => rfl
  | comment here stop ends => rfl
  | code c here notQuote noComment => exact (extract_here here 0).symm

theorem LexemeAt.extract_text (isPart : LexemeAt text index part stop) (le : start ≤ index) :
    text.extract start index ++ part.text = text.extract start stop := by
  rw [isPart.text_eq]
  exact extract_append le isPart.lt.1.le

end

/-- What a loop over the lexemes does at an index of the text: behind the text, when a literal
ends at an index, when a comment does, and at a character of code. -/
def atLexeme {σ ρ : Type} (text : List Char) (index : Nat) (past : Round σ ρ)
    (literal comment : Nat → Round σ ρ) (code : Char → Round σ ρ) : Round σ ρ :=
  if index < text.length then
    match text[index]? with
    | none => .fault
    | some c =>
      if isQuote c then
        match literalEnd? text index with
        | none => .fault
        | some next => literal next
      else
        match if c = '/' then commentEnd? text index else none with
        | some next => comment next
        | none => code c
  else past

section

variable {σ ρ : Type} {text : List Char} {index stop : Nat} {part : Lexeme}
  {past : Round σ ρ} {literal comment : Nat → Round σ ρ} {code : Char → Round σ ρ}

theorem atLexeme_past (isPast : text.length ≤ index) :
    atLexeme text index past literal comment code = past :=
  if_neg (Nat.not_lt.mpr isPast)

theorem atLexeme_eq (isPart : LexemeAt text index part stop) :
    atLexeme text index past literal comment code =
      match part with
      | .literal _ => literal stop
      | .comment _ => comment stop
      | .code c => code c := by
  have inText : index < text.length := isPart.lt.1.trans_le isPart.lt.2
  rw [atLexeme, if_pos inText]
  cases isPart with
  | literal quote here isQuote stop ends =>
      rw [here]
      dsimp only
      rw [if_pos isQuote, ends]
  | comment here stop ends =>
      rw [here]
      dsimp only
      rw [if_neg (by simp [isQuote_slash]), if_pos rfl, ends]
  | code c here notQuote noComment =>
      have none : (if c = '/' then commentEnd? text index else none) = none :=
        ite_eq_right_iff.mpr noComment
      rw [here]
      dsimp only
      rw [if_neg (by simp [notQuote]), none]

end

/-!
The removal of comments.
-/

/-- Where the loop that removes comments stands. -/
structure Stripping where
  index : Nat := 0
  /-- Where the part begins that is not in the pieces yet. -/
  start : Nat := 0
  pieces : List Char := []

def stripRound (text : List Char) (state : Stripping) : Round Stripping (List Char) :=
  atLexeme text state.index
    (.stop (state.pieces ++ text.drop state.start))
    (fun next => .goOn { state with index := next })
    (fun next => .goOn
      { index := next
        start := next
        pieces := state.pieces ++ text.extract state.start state.index ++
          (text.extract state.index next).filter (· = '\n') })
    (fun _ => .goOn { state with index := state.index + 1 })

/-- From every index on the loop adds what remains of the lexemes there to what is pending. -/
theorem ends_stripRound_from (text : List Char) (index : Nat) :
    ∀ start ≤ index, ∀ pieces, Ends (stripRound text) { index, start, pieces }
      (pieces ++ text.extract start index ++
        (lexemes (text.drop index)).flatMap Lexeme.uncommented) := by
  induction index using index_induction text with
  | step index ih =>
      intro start le pieces
      by_cases inText : index < text.length
      · obtain ⟨part, stop, isPart, divided⟩ := exists_lexemeAt inText
        have isLater := isPart.lt.1
        have goesOn := ih stop isLater inText
        rw [divided, List.flatMap_cons]
        cases part with
        | literal literal =>
            have round : stripRound text { index, start, pieces } =
                .goOn { index := stop, start, pieces } := atLexeme_eq isPart
            have later := goesOn start (le.trans isLater.le) pieces
            rw [← isPart.extract_text le] at later
            simp only [Lexeme.uncommented, Lexeme.text, List.append_assoc] at later ⊢
            exact .goOn round later
        | comment comment =>
            have isText : comment = text.extract index stop := isPart.text_eq
            have round : stripRound text { index, start, pieces } = .goOn
                { index := stop
                  start := stop
                  pieces := pieces ++ text.extract start index ++
                    (text.extract index stop).filter (· = '\n') } := atLexeme_eq isPart
            have later := goesOn stop le_rfl
              (pieces ++ text.extract start index ++ (text.extract index stop).filter (· = '\n'))
            rw [extract_self, List.append_nil, ← isText] at later
            rw [← isText] at round
            rw [Lexeme.uncommented, ← List.append_assoc]
            exact .goOn round later
        | code c =>
            obtain rfl : stop = index + 1 := by
              cases isPart
              rfl
            have round : stripRound text { index, start, pieces } =
                .goOn { index := index + 1, start, pieces } := atLexeme_eq isPart
            have later := goesOn start (Nat.le_succ_of_le le) pieces
            rw [← isPart.extract_text le] at later
            simp only [Lexeme.uncommented, Lexeme.text, List.append_assoc] at later ⊢
            exact .goOn round later
      · have isPast : text.length ≤ index := Nat.le_of_not_lt inText
        rw [List.drop_eq_nil_of_le isPast, lexemes_nil, List.flatMap_nil, List.append_nil,
          extract_past isPast]
        exact .stop (atLexeme_past isPast)

/-- The loop that removes comments ends on every text, with the text without comments. -/
theorem ends_stripRound (text : List Char) :
    Ends (stripRound text) {} (withoutComments text) := by
  have ends := ends_stripRound_from text 0 0 le_rfl []
  rwa [extract_self, List.drop_zero] at ends

/-!
The division at separators.
-/

/-- Where the loop that divides a script stands. -/
structure Dividing where
  index : Nat := 0
  /-- Where the segment begins that is not ended yet. -/
  start : Nat := 0
  brackets : Nat := 0
  angles : Nat := 0
  ended : List Segment := []

/-- The character before an index. -/
def previousAt (text : List Char) (index : Nat) : Option Char :=
  if index = 0 then none else text[index - 1]?

/-- A round of the loop at a character of code. -/
def divideCode (style : Separation) (text : List Char) (state : Dividing) (c : Char) :
    Round Dividing (List Segment) :=
  let next := { state with index := state.index + 1 }
  if isOpener c then .goOn { next with brackets := state.brackets + 1 }
  else if isCloser c then .goOn { next with brackets := state.brackets - 1 }
  else
    -- Only these two look at the character before them.
    let looksBack := style.typeArguments &&
      (c = '<' && 0 < state.index || c = '>' && 0 < state.angles)
    let previous := previousAt text state.index
    if looksBack && previous.isNone then .fault
    else if style.typeArguments && c = '<' && opensTypeArguments previous then
      .goOn { next with angles := state.angles + 1 }
    else if style.typeArguments && c = '>' && state.angles > 0 && previous ≠ some '=' then
      .goOn { next with angles := state.angles - 1 }
    else if state.brackets = 0 && state.angles = 0 && style.separators.contains c then
      .goOn { next with
        start := state.index + 1
        ended := state.ended ++ [⟨text.extract state.start state.index, some c⟩] }
    else .goOn next

def divideRound (style : Separation) (text : List Char) (state : Dividing) :
    Round Dividing (List Segment) :=
  atLexeme text state.index
    (.stop (state.ended ++
      if isAllBlank (text.drop state.start) then [] else [⟨text.drop state.start, none⟩]))
    (fun next => .goOn { state with index := next })
    (fun next => .goOn { state with index := next })
    (divideCode style text state)

/-- What is open where the loop stands. -/
def Dividing.nesting (text : List Char) (state : Dividing) : Nesting :=
  { brackets := state.brackets, angles := state.angles, previous := previousAt text state.index }

section

variable {style : Separation} {text : List Char} {index stop : Nat} {part : Lexeme} {c : Char}
  {state : Dividing} {nesting next : Nesting}

theorem exists_previousAt (isLater : 0 < index) (within : index ≤ text.length) :
    ∃ c, previousAt text index = some c := by
  rw [previousAt, if_neg isLater.ne']
  exact exists_getElem? (by omega)

theorem LexemeAt.previousAt_stop (isPart : LexemeAt text index part stop) :
    previousAt text stop = part.text.getLast? := by
  obtain ⟨isLater, within⟩ := isPart.lt
  obtain ⟨c, isLast⟩ := exists_previousAt (Nat.zero_lt_of_lt isLater) within
  have here : text[index + (stop - index - 1)]? = some c := by
    rw [previousAt, if_neg (by omega)] at isLast
    rwa [show index + (stop - index - 1) = stop - 1 by omega]
  rw [isLast, isPart.text_eq, List.extract_eq_take_drop, List.getLast?_take, if_neg (by omega),
    List.getElem?_drop, here, Option.some_or]

theorem Nesting.after_previous (after : nesting.after style part = .ok next) :
    next.previous = part.text.getLast? := by
  cases part with
  | literal text => cases after; rfl
  | comment text => cases after; rfl
  | code c => grind [Nesting.after, Nesting.afterCode?, Lexeme.text]

theorem divideCode_eq (here : text[state.index]? = some c)
    (isOpen : state.angles = 0 ∨ 0 < state.index) :
    divideCode style text state c =
      match (state.nesting text).after style (.code c) with
      | .ok next => .goOn { state with
          index := state.index + 1
          brackets := next.brackets
          angles := next.angles }
      | .error separator => .goOn { state with
          index := state.index + 1
          start := state.index + 1
          ended := state.ended ++ [⟨text.extract state.start state.index, some separator⟩] } := by
  obtain ⟨inText, -⟩ := List.getElem?_eq_some_iff.mp here
  have seen : 0 < state.index → ∃ c, previousAt text state.index = some c := by
    intro isLater
    exact exists_previousAt isLater inText.le
  grind [divideCode, Nesting.after, Nesting.afterCode?, Dividing.nesting]

/-- A round goes on with what the lexeme leaves open, or behind the separator that ends a
segment. -/
theorem divideRound_eq (isPart : LexemeAt text state.index part stop)
    (isOpen : state.angles = 0 ∨ 0 < state.index) :
    divideRound style text state =
      match (state.nesting text).after style part with
      | .ok next =>
          .goOn { state with index := stop, brackets := next.brackets, angles := next.angles }
      | .error separator =>
          .goOn { state with
            index := stop
            start := stop
            ended := state.ended ++ [⟨text.extract state.start state.index, some separator⟩] } := by
  rw [divideRound, atLexeme_eq isPart]
  cases isPart with
  | literal quote here isQuote stop ends => rfl
  | comment here stop ends => rfl
  | code c here notQuote noComment => exact divideCode_eq here isOpen

end

/-- From every index on the loop adds the cuts there, with what is pending before the first of
them, to the segments that are ended. -/
theorem ends_divideRound_from (style : Separation) (text : List Char) (index : Nat) :
    ∀ state : Dividing, state.index = index → state.start ≤ index →
      (state.angles = 0 ∨ 0 < index) →
      ∀ pending, textOf pending = text.extract state.start index →
        Ends (divideRound style text) state (state.ended ++
          ((pending.foldr consCut (cuts style (state.nesting text) (lexemes (text.drop index)))).map
            Cut.segment).filter Segment.isKept) := by
  induction index using index_induction text with
  | step index ih =>
      rintro state rfl le isOpen pending isPending
      by_cases inText : state.index < text.length
      · obtain ⟨part, stop, isPart, divided⟩ := exists_lexemeAt inText
        have isLater := isPart.lt.1
        have positive : 0 < stop := Nat.zero_lt_of_lt isLater
        have round : divideRound style text state = _ := divideRound_eq isPart isOpen
        rw [divided]
        cases after : (state.nesting text).after style part with
        | ok next =>
            rw [after] at round
            let later : Dividing :=
              { state with index := stop, brackets := next.brackets, angles := next.angles }
            have isNext : later.nesting text = next := by
              rw [Dividing.nesting, isPart.previousAt_stop, ← Nesting.after_previous after]
            have goesOn := ih stop isLater inText later rfl (le.trans isLater.le) (.inr positive)
              (pending ++ [part])
            rw [isNext, List.foldr_append] at goesOn
            rw [cuts_cons after]
            refine .goOn round (goesOn ?_)
            rw [textOf_append, isPending, textOf_cons, textOf_nil, List.append_nil]
            exact isPart.extract_text le
        | error separator =>
            rw [after] at round
            obtain ⟨rfl, -⟩ := Nesting.after_eq_error after
            let later : Dividing := { state with
              index := stop
              start := stop
              ended := state.ended ++ [⟨text.extract state.start state.index, some separator⟩] }
            have isNext : later.nesting text =
                { state.nesting text with previous := some separator } := by
              rw [Dividing.nesting, isPart.previousAt_stop]
              rfl
            have goesOn := ih stop isLater inText later rfl le_rfl (.inr positive) []
              (extract_self text stop).symm
            rw [isNext, List.foldr_nil] at goesOn
            rw [cuts_separator after, foldr_consCut, List.append_nil, List.map_cons,
              List.filter_cons_of_pos rfl, Cut.segment, isPending, List.append_cons]
            exact .goOn round goesOn
      · have isPast : text.length ≤ state.index := Nat.le_of_not_lt inText
        rw [extract_past isPast] at isPending
        have kept : ([({ parts := pending, separator := none } : Cut)].map Cut.segment).filter
            Segment.isKept =
              if isAllBlank (text.drop state.start) then []
              else [⟨text.drop state.start, none⟩] := by
          rw [List.map_singleton, Cut.segment, isPending, List.filter_singleton, Segment.isKept]
          cases isAllBlank (text.drop state.start) <;> rfl
        rw [List.drop_eq_nil_of_le isPast, lexemes_nil, cuts, foldr_consCut, List.append_nil, kept]
        exact .stop (atLexeme_past isPast)

/-- The loop that divides a script ends on every text, with its segments. -/
theorem ends_divideRound (style : Separation) (text : List Char) :
    Ends (divideRound style text) {} (segments style text) :=
  ends_divideRound_from style text 0 {} rfl le_rfl (.inl rfl) [] (extract_self text 0).symm

end ComponentAtlas.Source
