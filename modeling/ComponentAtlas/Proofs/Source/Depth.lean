/-
Module: ComponentAtlas.Proofs.Source.Depth
Purpose: Dividing a script at its commas and matching its brackets, which count in different
  ways, agree on every text.
Main exports:
  depth, Drains, depth_eq_zero_iff, closing_above, drains_iff, IsCode, CutsAt, cutsAt_iff
-/
import ComponentAtlas.Proofs.Source.Cutting

namespace ComponentAtlas.Source

/-!
The division counts the brackets from the start of the text, and never below zero.  The
matching counts from one bracket, and stops when the count is zero.  On the way to a place the
first count comes back to zero just when the second one does so from every bracket that
opens.
-/

/-- The number of open brackets behind some lexemes, when so many are open before them. -/
def depth (opened : Nat) (parts : List Lexeme) : Nat := parts.foldl Lexeme.depth opened

/-- So many open brackets are all closed at some place within the lexemes. -/
def Drains : Nat → List Lexeme → Prop
  | 0, _ => True
  | _ + 1, [] => False
  | opened + 1, part :: rest => Drains (part.depth (opened + 1)) rest

section

variable {opened fewer : Nat} {c : Char} {part : Lexeme} {parts : List Lexeme}

theorem depth_cons (opened : Nat) (part : Lexeme) (parts : List Lexeme) :
    depth opened (part :: parts) = depth (part.depth opened) parts := rfl

theorem Lexeme.depth_mono (le : fewer ≤ opened) (part : Lexeme) :
    part.depth fewer ≤ part.depth opened := by
  cases part with
  | code c => grind [Lexeme.depth]
  | literal text => exact le
  | comment text => exact le

theorem Drains.mono (drains : Drains opened parts) (le : fewer ≤ opened) : Drains fewer parts := by
  induction parts generalizing opened fewer with
  | nil =>
      cases opened with
      | zero => rw [Nat.le_zero.mp le]; exact drains
      | succ opened => cases drains
  | cons part parts ih =>
      match fewer, opened with
      | 0, _ => trivial
      | fewer + 1, opened + 1 => exact ih drains (part.depth_mono le)

/-- The lexeme is an opening bracket. -/
def Lexeme.opens : Lexeme → Bool
  | .code c => isOpener c
  | _ => false

theorem Lexeme.depth_of_opens (opens : part.opens) (opened : Nat) :
    part.depth opened = opened + 1 := by
  cases part with
  | code c => exact if_pos opens
  | literal text => cases opens
  | comment text => cases opens

theorem Lexeme.depth_zero (keeps : ¬part.opens) : part.depth 0 = 0 := by
  cases part with
  | code c => simp_all [Lexeme.depth, Lexeme.opens]
  | literal text => rfl
  | comment text => rfl

/-- Each bracket that opens in the lexemes is closed in them. -/
def AllClose (parts : List Lexeme) : Prop :=
  ∀ before part after, parts = before ++ part :: after → part.opens → Drains 1 after

theorem allClose_cons_iff :
    AllClose (part :: parts) ↔ (part.opens → Drains 1 parts) ∧ AllClose parts := by
  constructor
  · intro close
    refine ⟨close [] part parts rfl, ?_⟩
    rintro before other after rfl
    exact close (part :: before) other after rfl
  · rintro ⟨first, close⟩ before other after divided
    cases before with
    | nil =>
        cases divided
        exact first
    | cons _ before =>
        cases divided
        exact close before other after rfl

/-- The clamped count is zero just when the brackets that were open at first are closed, and
each one that opens later is closed. -/
theorem depth_eq_zero_iff : depth opened parts = 0 ↔ Drains opened parts ∧ AllClose parts := by
  induction parts generalizing opened with
  | nil => cases opened <;> simp [depth, Drains, AllClose]
  | cons part parts ih =>
      rw [depth_cons, ih, allClose_cons_iff]
      cases opened with
      | zero =>
          have first : Drains (part.depth 0) parts ↔ (part.opens → Drains 1 parts) := by
            by_cases opens : part.opens
            · rw [Lexeme.depth_of_opens opens]
              exact ⟨fun drains _ => drains, fun drains => drains opens⟩
            · rw [Lexeme.depth_zero opens]
              exact ⟨fun _ isOpener => absurd isOpener opens, fun _ => by cases parts <;> trivial⟩
          rw [first]
          exact ⟨fun closed => ⟨trivial, closed⟩, fun closed => closed.2⟩
      | succ opened =>
          -- A bracket that opens here comes on top of those that are open, and closes first.
          have first : Drains (part.depth (opened + 1)) parts → part.opens → Drains 1 parts := by
            intro drains opens
            rw [Lexeme.depth_of_opens opens] at drains
            exact drains.mono (by omega)
          exact ⟨fun closed => ⟨closed.1, first closed.1, closed.2⟩,
            fun closed => ⟨closed.1, closed.2.2⟩⟩

end

/-!
The scanner that looks for the end of a bracket takes the lexemes one by one.
-/

section

variable {frame : Frame} {frames below : List Frame} {pair : Bool} {c : Char}
  {next : Option Char} {inside rest text : List Char}

/-- Frames further down have a say only when a line break ends the last frame above them. -/
theorem move_above (frame : Frame) (below base : List Frame) (c : Char) (next : Option Char)
    (isOpen : base ≠ []) :
    move frame (below ++ base) c next =
      match move frame below c next with
      | some between => some { between with frames := between.frames ++ base }
      | none => some { frames := base } := by
  have notEmpty : (below ++ base).isEmpty = false := by simp [isOpen]
  cases frame <;> grind [move]

/-- Over a frame that takes line breaks as its own, the scanner goes on behind what was open
above it. -/
theorem closing_over {base : Frame} {below : List Frame}
    (keepsBreaks : ∀ next, move base below '\n' next = some { frames := base :: below })
    (frames : List Frame) (pair : Bool) (text : List Char) :
    closing (frames ++ base :: below) pair text =
      (closing frames pair text).bind fun count =>
        pass count (closing (base :: below) false (text.drop count)) := by
  induction text generalizing frames pair with
  | nil => cases frames <;> cases pair <;> rfl
  | cons c text ih =>
      have further : ∀ later : Option Nat,
          pass 1 (later.bind fun count =>
            pass count (closing (base :: below) false (text.drop count))) =
          (pass 1 later).bind fun count =>
            pass count (closing (base :: below) false ((c :: text).drop count)) := by
        intro later
        cases later with
        | none => rfl
        | some count => exact pass_pass 1 count _
      match frames, pair with
      | [], false => simp [closing]
      | _, true => rw [closing_pair, closing_pair, ih, further]
      | frame :: above, false =>
          rw [List.cons_append, closing_cons, closing_cons, move_above _ _ _ _ _ (by simp)]
          cases moved : move frame above c text.head? with
          | some between =>
              dsimp only
              rw [ih, further]
          | none =>
              -- The line break that ended the last frame is passed over in the frame below.
              obtain ⟨rfl, -⟩ := move_eq_none moved
              rw [Option.bind_some, pass_zero, List.drop_zero, closing_cons, keepsBreaks]

/-- With brackets open below, the scanner goes on behind what was open above them. -/
theorem closing_above (frames below : List Frame) (pair : Bool) (text : List Char) :
    closing (frames ++ .bracket :: below) pair text =
      (closing frames pair text).bind fun count =>
        pass count (closing (.bracket :: below) false (text.drop count)) :=
  closing_over (fun _ => move_ordinary rfl) frames pair text

theorem closing_of_extent (ends : extent frame (inside ++ rest) = inside.length)
    (below : List Frame) :
    Passes (frame :: .bracket :: below) inside (.bracket :: below) rest := by
  have above := closing_above [frame] below false (inside ++ rest)
  rw [List.singleton_append] at above
  rw [Passes, above]
  cases closed : closing [frame] false (inside ++ rest) with
  | none =>
      rw [extent, closed, Option.getD_none, List.length_append] at ends
      obtain rfl := List.length_eq_zero_iff.mp (show rest.length = 0 by omega)
      rfl
  | some count =>
      rw [extent, closed, Option.getD_some] at ends
      rw [ends, Option.bind_some, List.drop_left]

/-- With brackets open, the scanner takes a lexeme as a whole, and then as many brackets are
open as the lexeme leaves. -/
theorem AreLexemes.passes {part : Lexeme} {more : List Lexeme} (areLexemes : AreLexemes (part :: more))
    (opened : Nat) :
    Passes (List.replicate (opened + 1) .bracket) part.text
      (List.replicate (part.depth (opened + 1)) .bracket) (textOf more) := by
  cases areLexemes with
  | code c notQuote alone later =>
      rw [List.replicate_succ, Lexeme.depth]
      by_cases opener : isOpener c
      · rw [if_pos opener]
        exact .cons (move_opener opener) (.nil _ _)
      by_cases closer : isCloser c
      · rw [if_neg opener, if_pos closer]
        exact .cons (move_closer closer) (.nil _ _)
      rw [if_neg opener, if_neg closer]
      by_cases isSlash : c = '/'
      · subst isSlash
        exact .cons (move_slash (alone rfl)) (.nil _ _)
      · have ordinary : isOrdinary c := by simp [isOrdinary, notQuote, opener, closer, isSlash]
        exact .cons (move_ordinary ordinary) (.nil _ _)
  | literal quote inside isQuote ends later =>
      exact .cons (move_quote isQuote) (closing_of_extent ends _)
  | comment inside ends later =>
      obtain ⟨mark, frame, body, isMark, divided, size⟩ := commentLength?_eq_some ends
      cases inside with
      | nil =>
          rw [List.length_nil] at size
          omega
      | cons first inside =>
          rw [List.cons_append] at divided
          obtain ⟨rfl, rfl⟩ := List.cons.inj divided
          have ends : extent frame (inside ++ textOf more) = inside.length := by
            rw [List.length_cons] at size
            omega
          simp only [List.mem_cons, Prod.mk.injEq, List.not_mem_nil, or_false] at isMark
          obtain ⟨rfl, rfl⟩ | ⟨rfl, rfl⟩ := isMark
          · exact .pair rfl (closing_of_extent ends _)
          · exact .pair rfl (closing_of_extent ends _)

theorem closing_pos {count : Nat} (closed : closing (.bracket :: below) false text = some count) :
    0 < count := by
  cases text with
  | nil => cases closed
  | cons c text =>
      rw [closing_cons] at closed
      cases moved : move .bracket below c text.head? with
      | none =>
          obtain ⟨rfl, -⟩ := move_eq_none moved
          rw [move_ordinary rfl] at moved
          cases moved
      | some between =>
          rw [moved] at closed
          obtain ⟨answer, -, rfl⟩ := pass_eq_some.mp closed
          exact Nat.succ_pos _

/-- The scanner finds all brackets closed within some lexemes just when they drain there. -/
theorem drains_iff {parts more : List Lexeme} (areLexemes : AreLexemes (parts ++ more))
    (opened : Nat) :
    Drains opened parts ↔ ∃ count,
      closing (List.replicate opened .bracket) false (textOf (parts ++ more)) = some count ∧
        count ≤ (textOf parts).length := by
  induction parts generalizing opened with
  | nil =>
      cases opened with
      | zero => exact ⟨fun _ => ⟨0, by cases textOf ([] ++ more) <;> rfl, le_rfl⟩, fun _ => trivial⟩
      | succ opened =>
          refine ⟨fun drains => drains.elim, ?_⟩
          rintro ⟨count, closed, isZero⟩
          exact absurd (closing_pos closed) (by simpa using isZero)
  | cons part parts ih =>
      cases opened with
      | zero =>
          exact ⟨fun _ => ⟨0, by cases textOf (part :: parts ++ more) <;> rfl, Nat.zero_le _⟩,
            fun _ => trivial⟩
      | succ opened =>
          rw [List.cons_append] at areLexemes ⊢
          have step := areLexemes.passes opened
          rw [Passes] at step
          rw [textOf_cons, step, textOf_cons, List.length_append]
          refine (ih areLexemes.tail _).trans ⟨?_, ?_⟩
          · rintro ⟨count, closed, within⟩
            exact ⟨count + part.text.length, pass_eq_some.mpr ⟨count, closed, rfl⟩, by omega⟩
          · rintro ⟨_, closed, within⟩
            obtain ⟨count, later, rfl⟩ := pass_eq_some.mp closed
            exact ⟨count, later, by omega⟩

end

/-!
Places of a text.
-/

/-- The place holds a character of code: it lies outside literals and comments. -/
def IsCode (text : List Char) (place : Nat) : Prop :=
  ∃ before c after, lexemes text = before ++ .code c :: after ∧ (textOf before).length = place

/-- The segment with the separator that ended it. -/
def Segment.whole (segment : Segment) : List Char := segment.text ++ segment.separator.toList

/-- At this place of the text a separator ends a segment. -/
def CutsAt (style : Separation) (text : List Char) (place : Nat) : Prop :=
  ∃ front segment rest, segments style text = front ++ segment :: rest ∧
    segment.separator.isSome ∧ (front.flatMap Segment.whole).length + segment.text.length = place

/-- A separator ends a cut behind these lexemes. -/
def CutBehind (pieces : List Cut) (before : List Lexeme) (separator : Char) : Prop :=
  ∃ front cut rest, pieces = front ++ cut :: rest ∧ cut.separator = some separator ∧
    front.flatMap Cut.whole ++ cut.parts = before

section

variable {style : Separation} {nesting : Nesting} {part : Lexeme} {before after : List Lexeme}
  {separator other : Char} {pieces : List Cut}

theorem cutBehind_separator_iff :
    CutBehind ({ parts := [], separator := some other } :: pieces) before separator ↔
      before = [] ∧ other = separator ∨
        ∃ more, before = .code other :: more ∧ CutBehind pieces more separator := by
  constructor
  · rintro ⟨front, cut, rest, divided, ends, rfl⟩
    cases front with
    | nil =>
        cases divided
        exact .inl ⟨rfl, Option.some.inj ends⟩
    | cons first front =>
        cases divided
        exact .inr ⟨_, rfl, front, cut, rest, rfl, ends, rfl⟩
  · rintro (⟨rfl, rfl⟩ | ⟨more, rfl, front, cut, rest, rfl, ends, rfl⟩)
    · exact ⟨[], _, pieces, rfl, rfl, rfl⟩
    · exact ⟨_ :: front, cut, rest, rfl, ends, rfl⟩

theorem cutBehind_consCut_iff :
    CutBehind (consCut part pieces) before separator ↔
      ∃ more, before = part :: more ∧ CutBehind pieces more separator := by
  constructor
  · rintro ⟨front, cut, rest, divided, ends, rfl⟩
    cases pieces with
    | nil =>
        obtain ⟨rfl, rfl, rfl⟩ : front = [] ∧ cut = { parts := [part], separator := none } ∧ rest = [] := by
          cases front <;> simp_all [consCut]
        cases ends
    | cons first others =>
        cases front with
        | nil =>
            cases divided
            exact ⟨first.parts, rfl, [], first, rest, rfl, ends, rfl⟩
        | cons _ front =>
            cases divided
            exact ⟨_, rfl, first :: front, cut, rest, rfl, ends, rfl⟩
  · rintro ⟨more, rfl, front, cut, rest, rfl, ends, rfl⟩
    cases front with
    | nil => exact ⟨[], { cut with parts := part :: cut.parts }, rest, rfl, ends, rfl⟩
    | cons first front =>
        exact ⟨{ first with parts := part :: first.parts } :: front, cut, rest, rfl, ends, rfl⟩

theorem CutBehind.listed {parts : List Lexeme}
    (behind : CutBehind (cuts style nesting parts) before separator) :
    separator ∈ style.separators := by
  obtain ⟨front, cut, rest, divided, ends, -⟩ := behind
  obtain ⟨ended, last, isCuts, noSeparator, each⟩ := exists_cuts style nesting parts
  have member : cut ∈ ended ++ [last] := by
    rw [← isCuts, divided]
    exact List.mem_append_right _ List.mem_cons_self
  rcases List.mem_append.mp member with inEnded | isLast
  · obtain ⟨found, listed, isFound⟩ := each cut inEnded
    rw [ends] at isFound
    exact Option.some.inj isFound ▸ listed
  · rw [List.mem_singleton.mp isLast, noSeparator] at ends
    cases ends

theorem Lexeme.depth_code {c : Char} (noOpener : isOpener c = false) (noCloser : isCloser c = false)
    (opened : Nat) : (Lexeme.code c).depth opened = opened := by
  simp [Lexeme.depth, noOpener, noCloser]

/-- Lexemes are cut at a separator just when no bracket is open before it. -/
theorem cutBehind_iff (noLists : style.typeArguments = false) (listed : separator ∈ style.separators)
    (noOpener : isOpener separator = false) (noCloser : isCloser separator = false)
    (noAngles : nesting.angles = 0) (parts : List Lexeme) :
    CutBehind (cuts style nesting parts) before separator ↔
      ∃ after, parts = before ++ .code separator :: after ∧ depth nesting.brackets before = 0 := by
  induction parts generalizing nesting before with
  | nil =>
      constructor
      · rintro ⟨front, cut, rest, divided, ends, -⟩
        cases front with
        | nil =>
            cases divided
            cases ends
        | cons _ front => cases front <;> cases divided
      · rintro ⟨after, divided, -⟩
        cases before <;> cases divided
  | cons part parts ih =>
      cases after : nesting.after style part with
      | error other =>
          obtain ⟨rfl, -, otherOpener, otherCloser, noBrackets, -⟩ := Nesting.after_eq_error after
          have further : ∀ more, CutBehind (cuts style { nesting with previous := some other } parts)
              more separator ↔ _ := fun more => ih noAngles
          rw [cuts_separator after, cutBehind_separator_iff]
          constructor
          · rintro (⟨rfl, rfl⟩ | ⟨more, rfl, later⟩)
            · exact ⟨parts, rfl, noBrackets⟩
            · obtain ⟨tail, rfl, isZero⟩ := (further more).mp later
              exact ⟨tail, rfl, by rwa [depth_cons, Lexeme.depth_code otherOpener otherCloser]⟩
          · rintro ⟨tail, divided, isZero⟩
            cases before with
            | nil =>
                cases divided
                exact .inl ⟨rfl, rfl⟩
            | cons first more =>
                cases divided
                rw [depth_cons, Lexeme.depth_code otherOpener otherCloser] at isZero
                exact .inr ⟨more, rfl, (further more).mpr ⟨tail, rfl, isZero⟩⟩
      | ok next =>
          obtain ⟨brackets, angles⟩ := Nesting.after_eq_ok noLists after
          rw [cuts_cons after, cutBehind_consCut_iff]
          constructor
          · rintro ⟨more, rfl, later⟩
            obtain ⟨tail, rfl, isZero⟩ := (ih (angles.trans noAngles)).mp later
            exact ⟨tail, rfl, by rwa [depth_cons, ← brackets]⟩
          · rintro ⟨tail, divided, isZero⟩
            cases before with
            | nil =>
                -- With nothing open the separator would have cut here.
                cases divided
                have cut : nesting.after style (.code separator) = .error separator := by
                  have noBrackets : nesting.brackets = 0 := isZero
                  simp [Nesting.after, Nesting.afterCode?, noLists, noOpener, noCloser, noBrackets,
                    noAngles, listed]
                rw [cut] at after
                cases after
            | cons first more =>
                cases divided
                rw [depth_cons, ← brackets] at isZero
                exact ⟨more, rfl, (ih (angles.trans noAngles)).mpr ⟨tail, rfl, isZero⟩⟩

end

section

variable {text : List Char} {place start : Nat} {c : Char} {front before after : List Lexeme}

theorem exists_of_append_eq {α : Type} {left tail front rest : List α} {item : α}
    (same : left ++ tail = front ++ item :: rest) (notIn : item ∉ tail) :
    ∃ more, left = front ++ item :: more := by
  rcases List.append_eq_append_iff.mp same with ⟨more, -, divided⟩ | ⟨more, rfl, divided⟩
  · exact absurd (divided ▸ List.mem_append_right more List.mem_cons_self) notIn
  · cases more with
    | nil =>
        rw [List.nil_append] at divided
        exact absurd (divided ▸ List.mem_cons_self) notIn
    | cons first more =>
        cases divided
        exact ⟨more, rfl⟩

theorem Cut.textOf_whole (cut : Cut) : textOf cut.whole = cut.segment.whole := by
  obtain ⟨parts, separator⟩ := cut
  cases separator <;> simp [whole, segment, Segment.whole, Lexeme.text]

theorem textOf_flatMap_whole (pieces : List Cut) :
    textOf (pieces.flatMap Cut.whole) = (pieces.map Cut.segment).flatMap Segment.whole := by
  induction pieces with
  | nil => rfl
  | cons cut pieces ih =>
      rw [List.flatMap_cons, textOf_append, cut.textOf_whole, ih, List.map_cons, List.flatMap_cons]

/-- The places at which the segments end are those at which the lexemes are cut. -/
theorem cutsAt_iff_cutBehind (style : Separation) (text : List Char) (place : Nat) :
    CutsAt style text place ↔ ∃ before separator,
      CutBehind (cuts style {} (lexemes text)) before separator ∧
        (textOf before).length = place := by
  obtain ⟨ended, last, isCuts, noSeparator, -, isSegments⟩ := exists_segments style text
  constructor
  · rintro ⟨front, segment, rest, divided, ends, rfl⟩
    rw [isSegments] at divided
    obtain ⟨more, isEnded⟩ := exists_of_append_eq divided (by grind [Cut.segment])
    obtain ⟨pieces, later, rfl, rfl, isLater⟩ := List.map_eq_append_iff.mp isEnded
    obtain ⟨cut, others, rfl, rfl, -⟩ := List.map_eq_cons_iff.mp isLater
    obtain ⟨separator, isSeparator⟩ := Option.isSome_iff_exists.mp ends
    refine ⟨_, separator, ⟨pieces, cut, others ++ [last], ?_, isSeparator, rfl⟩, ?_⟩
    · rw [isCuts, List.append_assoc, List.cons_append]
    · rw [textOf_append, List.length_append, textOf_flatMap_whole]
      rfl
  · rintro ⟨before, separator, ⟨front, cut, rest, divided, ends, rfl⟩, rfl⟩
    rw [isCuts] at divided
    obtain ⟨more, rfl⟩ := exists_of_append_eq divided (by grind)
    rw [List.map_append, List.map_cons, List.append_assoc, List.cons_append] at isSegments
    refine ⟨_, cut.segment, _, isSegments, Option.isSome_iff_exists.mpr ⟨separator, ends⟩, ?_⟩
    rw [textOf_append, List.length_append, textOf_flatMap_whole]
    rfl

theorem getElem?_of_lexemes (divided : lexemes text = before ++ .code c :: after) :
    text[(textOf before).length]? = some c := by
  rw [← textOf_lexemes text, divided, textOf_append, List.getElem?_append_right le_rfl, Nat.sub_self]
  rfl

/-- Of two places of code the earlier one stands in the lexemes before the later one. -/
theorem exists_between {d : Char} {behind : List Lexeme}
    (first : lexemes text = front ++ .code c :: behind)
    (second : lexemes text = before ++ .code d :: after)
    (lt : (textOf front).length < (textOf before).length) :
    ∃ middle, before = front ++ .code c :: middle := by
  rcases List.append_eq_append_iff.mp (first.symm.trans second) with
    ⟨middle, rfl, divided⟩ | ⟨middle, rfl, -⟩
  · cases middle with
    | nil => simp at lt
    | cons part middle =>
        cases divided
        exact ⟨middle, rfl⟩
  · rw [textOf_append, List.length_append] at lt
    omega

/-- The end of a bracket lies among some lexemes behind it just when the bracket drains in
them. -/
theorem bracketEnd?_lt_iff {middle : List Lexeme}
    (divided : lexemes text = front ++ .code c :: (middle ++ after)) (opener : isOpener c) :
    (∃ stop, bracketEnd? text (textOf front).length = some stop ∧
      stop < (textOf (front ++ .code c :: middle)).length) ↔ Drains 1 middle := by
  have areLexemes : AreLexemes (middle ++ after) := by
    have whole := areLexemes_lexemes text
    rw [divided] at whole
    exact whole.right.tail
  have rest : text.drop (textOf front).length = c :: textOf (middle ++ after) := by
    rw [← textOf_lexemes text, divided, textOf_append, List.drop_left]
    rfl
  have length : (textOf (front ++ .code c :: middle)).length =
      (textOf front).length + 1 + (textOf middle).length := by
    rw [textOf_append, textOf_cons, List.length_append, List.length_append, Nat.add_assoc]
    rfl
  rw [drains_iff areLexemes, bracketEnd?, rest]
  dsimp only
  rw [if_pos opener, groupLength?, length, Option.map_map]
  constructor
  · rintro ⟨stop, isStop, lt⟩
    obtain ⟨count, closed, rfl⟩ := Option.map_eq_some_iff.mp isStop
    refine ⟨count, closed, ?_⟩
    simp only [Function.comp_apply] at lt
    omega
  · rintro ⟨count, closed, le⟩
    have positive := closing_pos closed
    refine ⟨_, Option.map_eq_some_iff.mpr ⟨count, closed, rfl⟩, ?_⟩
    simp only [Function.comp_apply]
    omega

/-- The brackets before a place of code all close in the lexemes before it just when the
scanner finds the end of each of them before the place. -/
theorem allClose_iff (divided : lexemes text = before ++ .code c :: after) :
    AllClose before ↔ ∀ start < (textOf before).length, IsCode text start →
      text[start]?.any isOpener →
        ∃ stop, bracketEnd? text start = some stop ∧ stop < (textOf before).length := by
  constructor
  · rintro close start lt ⟨front, opener, behind, isFront, rfl⟩ isOpener
    obtain ⟨middle, rfl⟩ := exists_between isFront divided lt
    rw [getElem?_of_lexemes isFront, Option.any_some] at isOpener
    rw [List.append_assoc, List.cons_append] at divided
    exact (bracketEnd?_lt_iff divided isOpener).mpr (close front _ middle rfl isOpener)
  · rintro ends front part middle rfl opens
    cases part with
    | literal text => cases opens
    | comment text => cases opens
    | code opener =>
        rw [List.append_assoc, List.cons_append] at divided
        refine (bracketEnd?_lt_iff divided opens).mp (ends _ ?_ ⟨front, opener, _, divided, rfl⟩ ?_)
        · rw [textOf_append, textOf_cons, List.length_append, List.length_append]
          exact Nat.lt_add_of_pos_right (Nat.add_pos_left Nat.one_pos _)
        · rw [getElem?_of_lexemes divided]
          exact opens

end

/-- A text is cut at just those commas outside literals and comments before which the scanner
finds the end of every bracket that opens before them there, whatever closing brackets have no
partner, whatever kinds are mixed, and whatever is never closed. -/
theorem cutsAt_iff (text : List Char) (place : Nat) :
    CutsAt commas text place ↔
      text[place]? = some ',' ∧ IsCode text place ∧
        ∀ start < place, IsCode text start → text[start]?.any isOpener →
          ∃ stop, bracketEnd? text start = some stop ∧ stop < place := by
  rw [cutsAt_iff_cutBehind]
  constructor
  · rintro ⟨before, separator, behind, rfl⟩
    obtain rfl : separator = ',' := List.mem_singleton.mp behind.listed
    obtain ⟨after, divided, isZero⟩ := (cutBehind_iff rfl (by decide) rfl rfl rfl _).mp behind
    exact ⟨getElem?_of_lexemes divided, ⟨before, ',', after, divided, rfl⟩,
      (allClose_iff divided).mp (depth_eq_zero_iff.mp isZero).2⟩
  · rintro ⟨isComma, ⟨before, c, after, divided, rfl⟩, ends⟩
    rw [getElem?_of_lexemes divided] at isComma
    obtain rfl := Option.some.inj isComma
    refine ⟨before, ',', (cutBehind_iff rfl (by decide) rfl rfl rfl _).mpr ⟨after, divided, ?_⟩, rfl⟩
    exact depth_eq_zero_iff.mpr ⟨by cases before <;> trivial, (allClose_iff divided).mpr ends⟩

-- A closing bracket without partner opens nothing, and brackets of two kinds close each other.
example :
    segments commas ")(],(,".toList = [⟨")(]".toList, some ','⟩, ⟨"(,".toList, none⟩] := by
  decide +kernel

end ComponentAtlas.Source
