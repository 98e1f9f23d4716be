/-
Module: ComponentAtlas.Proofs.Path.Expansion
Purpose: The groups of options in a pattern, read as a tree, and the texts that the tree
  stands for.
Main exports:
  HasGroup, Braced, Options, Braced.language, IsBalanced, Braced.mem_expand, expand_spec
-/
import Mathlib.Computability.Language
import ComponentAtlas.Path.Brace
import ComponentAtlas.Proofs.Text.Words

namespace ComponentAtlas.Path

open ComponentAtlas.Text

/-!
A group is closed when no brace stands between its two braces.  The first closed group of
a text is found wherever it stands behind text that has none.
-/

/-- Somewhere in the text a brace opens and the next brace closes. -/
def HasGroup (text : List Char) : Prop :=
  ∃ head inner tail, text = head ++ '{' :: inner ++ '}' :: tail ∧ ∀ c ∈ inner, isPlain c

/-- What is not closed by the next brace stays so, unless there was no brace and one that
closes follows. -/
theorem closesAt_append {rest after : List Char} (isOpen : closesAt rest = false)
    (noClosing : (after.dropWhile isPlain).head? ≠ some '}') :
    closesAt (rest ++ after) = false := by
  induction rest with
  | nil => simpa [closesAt] using noClosing
  | cons c rest ih =>
      cases plain : isPlain c with
      | true => simpa [closesAt, plain] using ih (by simpa [closesAt, plain] using isOpen)
      | false => simpa [closesAt, plain] using isOpen

theorem group?_cons_eq_none {c : Char} {rest : List Char} :
    group? (c :: rest) = none ↔ (c = '{' → closesAt rest = false) ∧ group? rest = none := by
  by_cases opens : c = '{' <;> cases closes : closesAt rest <;> simp [group?, opens, closes]

theorem head?_dropWhile_isPlain_ne {text : List Char} (noClosing : '}' ∉ text) :
    (text.dropWhile isPlain).head? ≠ some '}' := fun closes =>
  noClosing ((List.dropWhile_sublist _).mem (List.mem_of_head? closes))

theorem group?_eq_none_of_notMem {text : List Char} (noClosing : '}' ∉ text) :
    group? text = none := by
  induction text with
  | nil => rfl
  | cons c rest ih =>
      have restOpen : '}' ∉ rest := fun member => noClosing (List.mem_cons_of_mem _ member)
      refine group?_cons_eq_none.mpr ⟨fun _ => ?_, ih restOpen⟩
      simpa [closesAt] using head?_dropWhile_isPlain_ne restOpen

/-- More text closes no group as long as it has no closing brace. -/
theorem group?_append_eq_none {head after : List Char} (free : group? head = none)
    (noClosing : '}' ∉ after) : group? (head ++ after) = none := by
  induction head with
  | nil => exact group?_eq_none_of_notMem noClosing
  | cons c rest ih =>
      obtain ⟨isOpen, restFree⟩ := group?_cons_eq_none.mp free
      exact group?_cons_eq_none.mpr
        ⟨fun opens => closesAt_append (isOpen opens) (head?_dropWhile_isPlain_ne noClosing),
          ih restFree⟩

/-- The first closed group is the one behind text without any. -/
theorem group?_append_group {head inner : List Char} (free : group? head = none)
    (plain : ∀ c ∈ inner, isPlain c) (tail : List Char) :
    group? (head ++ '{' :: inner ++ '}' :: tail) = some { head, inner, tail } := by
  induction head with
  | nil =>
      have closing : isPlain '}' = false := by decide
      have isStop : ∀ c ∈ ('}' :: tail).head?, isPlain c = false := by simp [closing]
      obtain ⟨isInner, isRest⟩ := takeWhile_append_stop plain isStop
      simp [group?, closesAt, isInner, isRest]
  | cons c rest ih =>
      obtain ⟨isOpen, restFree⟩ := group?_cons_eq_none.mp free
      have opening : isPlain '{' = false := by decide
      have staysOpen : ¬(c = '{' ∧ closesAt (rest ++ '{' :: inner ++ '}' :: tail)) := by
        rintro ⟨opens, closes⟩
        rw [List.append_assoc, closesAt_append (isOpen opens) (by simp [opening])] at closes
        cases closes
      rw [List.cons_append, List.cons_append, group?, if_neg (by simpa using staysOpen),
        ih restFree]
      rfl

theorem group?_eq_none_iff {text : List Char} : group? text = none ↔ ¬HasGroup text := by
  constructor
  · rintro none ⟨head, inner, tail, rfl, plain⟩
    induction head with
    | nil =>
        have isFree : group? [] = Option.none := rfl
        cases none.symm.trans (group?_append_group isFree plain tail)
    | cons c rest ih => exact ih (group?_cons_eq_none.mp none).2
  · intro noGroup
    cases found : group? text with
    | none => rfl
    | some group =>
        obtain ⟨isText, plain⟩ := eq_of_group? found
        exact absurd ⟨_, _, _, isText, List.all_eq_true.mp plain⟩ noGroup

/-!
Expanding replaces the first closed group by its options.
-/

theorem expand_of_none {pattern : List Char} (none : group? pattern = none) :
    expand pattern = [pattern] := by
  rw [expand]
  split
  · rfl
  · rename_i found
    simp [none] at found

theorem mem_expand_of_some {pattern text : List Char} {group : Group}
    (found : group? pattern = some group) :
    text ∈ expand pattern ↔ ∃ option ∈ group.options, text ∈ expand (group.choose option) := by
  rw [expand]
  split
  · rename_i none
    simp [none] at found
  · rename_i other isOther
    obtain rfl : other = group := by simpa [isOther] using found
    simp

/-- No closed group is left, and something always is. -/
theorem expand_free (pattern : List Char) :
    expand pattern ≠ [] ∧ ∀ expanded ∈ expand pattern, group? expanded = none := by
  induction pattern using expand.induct with
  | case1 pattern none =>
      rw [expand_of_none none]
      simpa using none
  | case2 pattern group found ih =>
      constructor
      · obtain ⟨option, isOption⟩ :=
          List.exists_mem_of_ne_nil _ (splitWhere_ne_nil (· = ',') group.inner)
        obtain ⟨text, member⟩ := List.exists_mem_of_ne_nil _ (ih option isOption).1
        exact List.ne_nil_of_mem ((mem_expand_of_some found).mpr ⟨option, isOption, member⟩)
      · intro expanded member
        obtain ⟨option, isOption, member⟩ := (mem_expand_of_some found).mp member
        exact (ih option isOption).2 expanded member

theorem group?_append_of_notMem {head : List Char} (noOpening : '{' ∉ head) (rest : List Char) :
    group? (head ++ rest) =
      (group? rest).map fun group => { group with head := head ++ group.head } := by
  induction head with
  | nil => simp
  | cons c head ih =>
      simp only [List.mem_cons, not_or] at noOpening
      rw [List.cons_append, group?, if_neg (by simp [Ne.symm noOpening.1]), ih noOpening.2,
        Option.map_map]
      rfl

/-- What stands in front of all braces stands in front of every expansion. -/
theorem mem_expand_append {head pattern text : List Char} (noOpening : '{' ∉ head) :
    text ∈ expand (head ++ pattern) ↔ ∃ expanded ∈ expand pattern, head ++ expanded = text := by
  induction pattern using expand.induct generalizing text with
  | case1 pattern none =>
      have stillNone : group? (head ++ pattern) = .none := by
        rw [group?_append_of_notMem noOpening, none, Option.map_none]
      simp [expand_of_none none, expand_of_none stillNone, eq_comm]
  | case2 pattern group found ih =>
      have stillFound :
          group? (head ++ pattern) = some { group with head := head ++ group.head } := by
        rw [group?_append_of_notMem noOpening, found, Option.map_some]
      rw [mem_expand_of_some stillFound]
      calc (∃ option ∈ group.options,
              text ∈ expand (head ++ group.head ++ trim option ++ group.tail))
        _ ↔ ∃ option ∈ group.options, ∃ expanded ∈ expand (group.choose option),
              head ++ expanded = text := by
            refine exists_congr fun option => and_congr_right fun isOption => ?_
            rw [← ih option isOption, Group.choose]
            simp only [List.append_assoc]
        _ ↔ _ := by
            simp only [mem_expand_of_some found]
            constructor
            · rintro ⟨option, isOption, expanded, isExpanded, same⟩
              exact ⟨expanded, ⟨option, isOption, isExpanded⟩, same⟩
            · rintro ⟨expanded, ⟨option, isOption, isExpanded⟩, same⟩
              exact ⟨option, isOption, expanded, isExpanded, same⟩

/-!
A pattern with balanced braces is read as a tree: a group is divided into its options, and
an option is a pattern itself, in which a comma can only stand in a further group.
-/

/-- A character that stands for itself: any but a brace, and in an option any but a comma
too. -/
def isOrdinary (inGroup : Bool) (c : Char) : Bool := isPlain c && !(inGroup && c = ',')

theorem isPlain_of_isOrdinary {inGroup : Bool} {c : Char} (ordinary : isOrdinary inGroup c) :
    isPlain c := by
  simp only [isOrdinary, Bool.and_eq_true] at ordinary
  exact ordinary.1

theorem isOrdinary_of_inGroup {c : Char} (ordinary : isOrdinary true c) (inGroup : Bool) :
    isOrdinary inGroup c := by
  cases inGroup with
  | true => exact ordinary
  | false => simpa [isOrdinary] using isPlain_of_isOrdinary ordinary

mutual

/-- A pattern as its braces divide it. -/
inductive Braced : (inGroup : Bool) → Type where
  | nil {inGroup : Bool} : Braced inGroup
  | char {inGroup : Bool} (c : Char) (ordinary : isOrdinary inGroup c) (rest : Braced inGroup) :
      Braced inGroup
  | group {inGroup : Bool} (options : Options) (rest : Braced inGroup) : Braced inGroup

/-- The options of a group, of which there is always one. -/
inductive Options : Type where
  | last (option : Braced true) : Options
  | more (option : Braced true) (others : Options) : Options

end

mutual

/-- A pattern as it is written. -/
def Braced.text {inGroup : Bool} : Braced inGroup → List Char
  | .nil => []
  | .char c _ rest => c :: rest.text
  | .group options rest => '{' :: options.text ++ '}' :: rest.text

def Options.text : Options → List Char
  | .last option => option.text
  | .more option others => option.text ++ ',' :: others.text

end

/-- The texts of a language without the blanks around them. -/
def trimmed (language : Language Char) : Language Char := trim '' language

theorem mem_trimmed {language : Language Char} {text : List Char} :
    text ∈ trimmed language ↔ ∃ written ∈ language, trim written = text := Iff.rfl

mutual

/-- The texts that a pattern stands for: a character stands for itself, and what stands in a
row is put together. -/
def Braced.language {inGroup : Bool} : Braced inGroup → Language Char
  | .nil => 1
  | .char c _ rest => {[c]} * rest.language
  | .group options rest => options.language * rest.language

/-- A group stands for the texts of all its options, without the blanks around them. -/
def Options.language : Options → Language Char
  | .last option => trimmed option.language
  | .more option others => trimmed option.language + others.language

end

mutual

/-- A pattern stands for some text. -/
theorem Braced.exists_mem_language {inGroup : Bool} :
    (pieces : Braced inGroup) → ∃ text, text ∈ pieces.language
  | .nil => ⟨[], rfl⟩
  | .char c _ rest =>
      have ⟨after, isAfter⟩ := rest.exists_mem_language
      ⟨_, Language.mem_mul.mpr ⟨[c], rfl, after, isAfter, rfl⟩⟩
  | .group options rest =>
      have ⟨chosen, isChosen⟩ := options.exists_mem_language
      have ⟨after, isAfter⟩ := rest.exists_mem_language
      ⟨_, Language.mem_mul.mpr ⟨chosen, isChosen, after, isAfter, rfl⟩⟩

theorem Options.exists_mem_language : (options : Options) → ∃ text, text ∈ options.language
  | .last option =>
      have ⟨written, isWritten⟩ := option.exists_mem_language
      ⟨_, mem_trimmed.mpr ⟨written, isWritten, rfl⟩⟩
  | .more _ others =>
      have ⟨text, isText⟩ := others.exists_mem_language
      ⟨text, .inr isText⟩

end

mutual

/-- No brace is left in the texts of a pattern, and no comma in those of an option. -/
theorem Braced.isOrdinary_of_mem {inGroup : Bool} {text : List Char} :
    (pieces : Braced inGroup) → text ∈ pieces.language → ∀ c ∈ text, isOrdinary inGroup c
  | .nil, isText => by
      obtain rfl : text = [] := isText
      simp
  | .char c ordinary rest, isText => by
      obtain ⟨_, rfl, after, isAfter, rfl⟩ := Language.mem_mul.mp isText
      simpa [ordinary] using rest.isOrdinary_of_mem isAfter
  | .group options rest, isText => by
      obtain ⟨chosen, isChosen, after, isAfter, rfl⟩ := Language.mem_mul.mp isText
      intro c member
      rcases List.mem_append.mp member with inChosen | inAfter
      · exact isOrdinary_of_inGroup (options.isOrdinary_of_mem isChosen c inChosen) inGroup
      · exact rest.isOrdinary_of_mem isAfter c inAfter

theorem Options.isOrdinary_of_mem {text : List Char} :
    (options : Options) → text ∈ options.language → ∀ c ∈ text, isOrdinary true c
  | .last option, isText => by
      obtain ⟨written, isWritten, rfl⟩ := mem_trimmed.mp isText
      exact fun c member => option.isOrdinary_of_mem isWritten c (mem_of_mem_trim member)
  | .more option others, isText => by
      rcases isText with isFirst | isOther
      · obtain ⟨written, isWritten, rfl⟩ := mem_trimmed.mp isFirst
        exact fun c member => option.isOrdinary_of_mem isWritten c (mem_of_mem_trim member)
      · exact others.isOrdinary_of_mem isOther

end

/-!
Expanding works from the inside out and from left to right, so when it comes to a group, all
options of the group have been expanded before.  What stands in front of the place that has
been reached has no closed group: an outer group is still open there.
-/

theorem closing_notMem {inGroup : Bool} {text : List Char}
    (ordinary : ∀ c ∈ text, isOrdinary inGroup c) : '}' ∉ text := fun member => by
  simpa [isOrdinary, isPlain] using ordinary _ member

/-- Options that are written with a comma behind each of them. -/
def withCommas (options : List (List Char)) : List Char :=
  options.flatMap fun option => option ++ [',']

theorem splitWhere_withCommas {options : List (List Char)} {last : List Char}
    (ordinary : ∀ option ∈ options ++ [last], ∀ c ∈ option, isOrdinary true c) :
    splitWhere (· = ',') (withCommas options ++ last) = options ++ [last] := by
  have noComma {option : List Char} (ordinary : ∀ c ∈ option, isOrdinary true c) :
      splitWhere (· = ',') option = [option] :=
    splitWhere_of_none fun c member => by
      have isOption := ordinary c member
      simp only [isOrdinary, Bool.true_and, Bool.and_eq_true, Bool.not_eq_true'] at isOption
      simpa using isOption.2
  induction options with
  | nil => exact noComma (ordinary last (by simp))
  | cons option rest ih =>
      have isCons :
          withCommas (option :: rest) ++ last = option ++ ',' :: (withCommas rest ++ last) := by
        simp [withCommas]
      rw [isCons, splitWhere_append_cons (by simp), noComma (ordinary option (by simp)),
        ih fun other member => ordinary other (by simp_all)]
      rfl

theorem isPlain_withCommas {options : List (List Char)}
    (ordinary : ∀ option ∈ options, ∀ c ∈ option, isOrdinary true c) :
    ∀ c ∈ withCommas options, isPlain c := by
  intro c member
  obtain ⟨option, isOption, inOption⟩ := List.mem_flatMap.mp member
  rcases List.mem_append.mp inOption with inside | comma
  · exact isPlain_of_isOrdinary (ordinary option isOption c inside)
  · obtain rfl : c = ',' := by simpa using comma
    rfl

/-- A group whose options are expanded is replaced by one of them. -/
theorem mem_expand_group {head tail text last : List Char} {options : List (List Char)}
    (free : group? head = none)
    (ordinary : ∀ option ∈ options ++ [last], ∀ c ∈ option, isOrdinary true c) :
    text ∈ expand (head ++ '{' :: (withCommas options ++ last) ++ '}' :: tail) ↔
      ∃ option ∈ options ++ [last], text ∈ expand (head ++ trim option ++ tail) := by
  have plain : ∀ c ∈ withCommas options ++ last, isPlain c := by
    intro c member
    rcases List.mem_append.mp member with inOptions | inLast
    · exact isPlain_withCommas (fun option isOption => ordinary option (by simp [isOption])) c
        inOptions
    · exact isPlain_of_isOrdinary (ordinary last (by simp) c inLast)
  rw [mem_expand_of_some (group?_append_group free plain tail), Group.options,
    splitWhere_withCommas ordinary]
  rfl

theorem exists_mem_mul {first second : Language Char} {holds : List Char → Prop} :
    (∃ text ∈ first * second, holds text) ↔
      ∃ left ∈ first, ∃ right ∈ second, holds (left ++ right) := by
  constructor
  · rintro ⟨_, isText, isHeld⟩
    obtain ⟨left, isLeft, right, isRight, rfl⟩ := Language.mem_mul.mp isText
    exact ⟨left, isLeft, right, isRight, isHeld⟩
  · rintro ⟨left, isLeft, right, isRight, isHeld⟩
    exact ⟨_, Language.mem_mul.mpr ⟨left, isLeft, right, isRight, rfl⟩, isHeld⟩

/-- An option that is expanded next is chosen among those that were expanded before. -/
theorem exists_chosen_concat {done : List (List Char)} {option : Braced true}
    (holds : List Char → Prop) {other : Prop} :
    (∃ next ∈ option.language, (∃ chosen ∈ done ++ [next], holds (trim chosen)) ∨ other) ↔
      (∃ chosen ∈ done, holds (trim chosen)) ∨ (∃ text ∈ trimmed option.language, holds text) ∨
        other := by
  constructor
  · rintro ⟨next, isNext, ⟨chosen, isChosen, isHeld⟩ | isOther⟩
    · rcases List.mem_append.mp isChosen with isDone | isLast
      · exact .inl ⟨chosen, isDone, isHeld⟩
      · obtain rfl : chosen = next := by simpa using isLast
        exact .inr (.inl ⟨_, ⟨chosen, isNext, rfl⟩, isHeld⟩)
    · exact .inr (.inr isOther)
  · obtain ⟨some, isSome⟩ := option.exists_mem_language
    rintro (⟨chosen, isDone, isHeld⟩ | ⟨_, ⟨next, isNext, rfl⟩, isHeld⟩ | isOther)
    · exact ⟨some, isSome, .inl ⟨chosen, by simp [isDone], isHeld⟩⟩
    · exact ⟨next, isNext, .inl ⟨next, by simp, isHeld⟩⟩
    · exact ⟨some, isSome, .inr isOther⟩

theorem ordinary_concat {done : List (List Char)} {option : Braced true} {next : List Char}
    (ordinary : ∀ option ∈ done, ∀ c ∈ option, isOrdinary true c)
    (isNext : next ∈ option.language) :
    ∀ option ∈ done ++ [next], ∀ c ∈ option, isOrdinary true c := by
  intro chosen member
  rcases List.mem_append.mp member with isDone | isLast
  · exact ordinary chosen isDone
  · obtain rfl : chosen = next := by simpa using isLast
    exact option.isOrdinary_of_mem isNext

/-- Options that are expanded leave their group open. -/
theorem group?_append_withCommas {head : List Char} (free : group? head = none)
    {done : List (List Char)} (ordinary : ∀ option ∈ done, ∀ c ∈ option, isOrdinary true c) :
    group? (head ++ '{' :: withCommas done) = none := by
  refine group?_append_eq_none free fun member => ?_
  have plain := isPlain_withCommas ordinary '}' (by simpa using member)
  exact absurd plain (by decide)

mutual

/-- Behind text without closed groups, a pattern may be replaced by the texts that it stands
for. -/
theorem Braced.mem_expand {inGroup : Bool} {head : List Char} (tail text : List Char)
    (free : group? head = none) : (pieces : Braced inGroup) →
    (text ∈ expand (head ++ pieces.text ++ tail) ↔
      ∃ inner ∈ pieces.language, text ∈ expand (head ++ inner ++ tail))
  | .nil => by
      constructor
      · exact fun member => ⟨[], rfl, member⟩
      · rintro ⟨_, rfl, member⟩
        exact member
  | .char c ordinary rest => by
      have isOne : ∀ d ∈ [c], isOrdinary inGroup d := by simpa using ordinary
      have isRest := rest.mem_expand tail text
        (group?_append_eq_none free (closing_notMem isOne))
      have isSingle (left : List Char) : left ∈ ({[c]} : Language Char) ↔ left = [c] := Iff.rfl
      rw [Braced.text, Braced.language, exists_mem_mul]
      simpa [isSingle] using isRest
  | .group options rest => by
      have isGroup := options.mem_expand (rest.text ++ tail) text free [] (by simp)
      rw [Braced.text, Braced.language, exists_mem_mul]
      calc text ∈ expand (head ++ ('{' :: options.text ++ '}' :: rest.text) ++ tail)
        _ ↔ ∃ chosen ∈ options.language, text ∈ expand (head ++ chosen ++ rest.text ++ tail) := by
            simpa [withCommas] using isGroup
        _ ↔ ∃ chosen ∈ options.language, ∃ after ∈ rest.language,
              text ∈ expand (head ++ (chosen ++ after) ++ tail) := by
            refine exists_congr fun chosen => and_congr_right fun isChosen => ?_
            have noClosing := closing_notMem (options.isOrdinary_of_mem isChosen)
            simpa using rest.mem_expand tail text (group?_append_eq_none free noClosing)

/-- A group of which some options are expanded is replaced by one of them, or by a text that
one of the others stands for. -/
theorem Options.mem_expand {head : List Char} (tail text : List Char) (free : group? head = none)
    (done : List (List Char)) (ordinary : ∀ option ∈ done, ∀ c ∈ option, isOrdinary true c) :
    (options : Options) →
    (text ∈ expand (head ++ '{' :: (withCommas done ++ options.text) ++ '}' :: tail) ↔
      (∃ option ∈ done, text ∈ expand (head ++ trim option ++ tail)) ∨
        ∃ chosen ∈ options.language, text ∈ expand (head ++ chosen ++ tail))
  | .last option => by
      have isOption := option.mem_expand ('}' :: tail) text
        (group?_append_withCommas free ordinary)
      rw [Options.text, Options.language]
      calc text ∈ expand (head ++ '{' :: (withCommas done ++ option.text) ++ '}' :: tail)
        _ ↔ ∃ last ∈ option.language,
              text ∈ expand (head ++ '{' :: (withCommas done ++ last) ++ '}' :: tail) := by
            simpa using isOption
        _ ↔ ∃ last ∈ option.language,
              (∃ chosen ∈ done ++ [last], text ∈ expand (head ++ trim chosen ++ tail)) ∨ False := by
            refine exists_congr fun last => and_congr_right fun isLast => ?_
            rw [mem_expand_group free (ordinary_concat ordinary isLast), or_false]
        _ ↔ _ := by
            rw [exists_chosen_concat
              (fun chosen => text ∈ expand (head ++ chosen ++ tail)), or_false]
  | .more option others => by
      have isOption := option.mem_expand (',' :: others.text ++ '}' :: tail) text
        (group?_append_withCommas free ordinary)
      have isSum (chosen : List Char) : chosen ∈ trimmed option.language + others.language ↔
          chosen ∈ trimmed option.language ∨ chosen ∈ others.language := Iff.rfl
      rw [Options.text, Options.language]
      calc text ∈ expand (head ++ '{' :: (withCommas done ++ (option.text ++ ',' :: others.text)) ++
              '}' :: tail)
        _ ↔ ∃ next ∈ option.language, text ∈ expand (head ++
              '{' :: (withCommas (done ++ [next]) ++ others.text) ++ '}' :: tail) := by
            simpa [withCommas] using isOption
        _ ↔ ∃ next ∈ option.language,
              (∃ chosen ∈ done ++ [next], text ∈ expand (head ++ trim chosen ++ tail)) ∨
                ∃ chosen ∈ others.language, text ∈ expand (head ++ chosen ++ tail) :=
            exists_congr fun next => and_congr_right fun isNext =>
              others.mem_expand tail text free _ (ordinary_concat ordinary isNext)
        _ ↔ _ := by
            rw [exists_chosen_concat
              (fun chosen => text ∈ expand (head ++ chosen ++ tail))]
            simp only [isSum, or_and_right, exists_or]

end

/-!
The trees are the patterns with balanced braces.
-/

/-- After some braces that are still open, the text closes all braces, those that it opens
included, and it closes no other. -/
def closesAll : (depth : Nat) → List Char → Bool
  | depth, [] => depth = 0
  | depth, c :: rest =>
    if c = '{' then closesAll (depth + 1) rest
    else if c = '}' then depth ≠ 0 && closesAll (depth - 1) rest
    else closesAll depth rest

/-- Every brace of the pattern has its counterpart. -/
def IsBalanced (pattern : List Char) : Prop := closesAll 0 pattern

theorem closesAll_opening (depth : Nat) (rest : List Char) :
    closesAll depth ('{' :: rest) = closesAll (depth + 1) rest := by
  simp [closesAll]

theorem closesAll_closing (depth : Nat) (rest : List Char) :
    closesAll (depth + 1) ('}' :: rest) = closesAll depth rest := by
  simp [closesAll]

theorem closesAll_plain {c : Char} (plain : isPlain c) (depth : Nat) (rest : List Char) :
    closesAll depth (c :: rest) = closesAll depth rest := by
  simp only [isPlain, Bool.and_eq_true, decide_eq_true_eq] at plain
  simp [closesAll, plain]

mutual

theorem Braced.closesAll_append {inGroup : Bool} (depth : Nat) (after : List Char) :
    (pieces : Braced inGroup) → closesAll depth (pieces.text ++ after) = closesAll depth after
  | .nil => rfl
  | .char c ordinary rest => by
      rw [Braced.text, List.cons_append, closesAll_plain (isPlain_of_isOrdinary ordinary),
        rest.closesAll_append depth after]
  | .group options rest => by
      rw [Braced.text, List.append_assoc, List.cons_append, List.cons_append, closesAll_opening,
        options.closesAll_append (depth + 1) _, closesAll_closing,
        rest.closesAll_append depth after]

theorem Options.closesAll_append (depth : Nat) (after : List Char) :
    (options : Options) → closesAll depth (options.text ++ after) = closesAll depth after
  | .last option => option.closesAll_append depth after
  | .more option others => by
      have comma : isPlain ',' := by decide
      rw [Options.text, List.append_assoc, List.cons_append, option.closesAll_append depth _,
        closesAll_plain comma, others.closesAll_append depth after]

end

/-- The options with a change to the first one. -/
def Options.mapFirst (change : Braced true → Braced true) : Options → Options
  | .last option => .last (change option)
  | .more option others => .more (change option) others

theorem Options.text_mapFirst {change : Braced true → Braced true} (lead : List Char)
    (adds : ∀ option, (change option).text = lead ++ option.text) (options : Options) :
    (options.mapFirst change).text = lead ++ options.text := by
  cases options with
  | last option => exact adds option
  | more option others => simp [Options.mapFirst, Options.text, adds]

/-- Behind an open brace, options are read up to the brace that closes it. -/
theorem exists_options {depth : Nat} {text : List Char} (closes : closesAll (depth + 1) text) :
    ∃ options : Options, ∃ rest, text = options.text ++ '}' :: rest ∧ closesAll depth rest := by
  induction h : text.length using Nat.strong_induction_on generalizing depth text with
  | h size ih =>
      subst h
      cases text with
      | nil => cases closes
      | cons c text =>
          by_cases opens : c = '{'
          · subst opens
            rw [closesAll_opening] at closes
            obtain ⟨inner, after, rfl, afterCloses⟩ := ih text.length (by simp) closes rfl
            obtain ⟨options, rest, rfl, restCloses⟩ :=
              ih after.length (by simp; omega) afterCloses rfl
            refine ⟨options.mapFirst (.group inner), rest, ?_, restCloses⟩
            rw [Options.text_mapFirst ('{' :: inner.text ++ ['}']) (by simp [Braced.text])]
            simp
          · by_cases shuts : c = '}'
            · subst shuts
              exact ⟨.last .nil, text, rfl, by rwa [closesAll_closing] at closes⟩
            · have plain : isPlain c := by simp [isPlain, opens, shuts]
              rw [closesAll_plain plain] at closes
              obtain ⟨options, rest, rfl, restCloses⟩ := ih text.length (by simp) closes rfl
              by_cases comma : c = ','
              · subst comma
                exact ⟨.more .nil options, rest, rfl, restCloses⟩
              · have ordinary : isOrdinary true c := by simp [isOrdinary, plain, comma]
                refine ⟨options.mapFirst (.char c ordinary), rest, ?_, restCloses⟩
                rw [Options.text_mapFirst [c] (by simp [Braced.text])]
                rfl

theorem exists_braced {text : List Char} (closes : closesAll 0 text) :
    ∃ pieces : Braced false, pieces.text = text := by
  induction h : text.length using Nat.strong_induction_on generalizing text with
  | h size ih =>
      subst h
      cases text with
      | nil => exact ⟨.nil, rfl⟩
      | cons c text =>
          by_cases opens : c = '{'
          · subst opens
            rw [closesAll_opening] at closes
            obtain ⟨options, rest, rfl, restCloses⟩ := exists_options closes
            obtain ⟨pieces, rfl⟩ := ih rest.length (by simp; omega) restCloses rfl
            exact ⟨.group options pieces, rfl⟩
          · have notClosing : c ≠ '}' := by
              rintro rfl
              simp [closesAll] at closes
            have plain : isPlain c := by simp [isPlain, opens, notClosing]
            rw [closesAll_plain plain] at closes
            obtain ⟨pieces, rfl⟩ := ih text.length (by simp) closes rfl
            exact ⟨.char c (by simpa [isOrdinary] using plain) pieces, rfl⟩

theorem isBalanced_iff {pattern : List Char} :
    IsBalanced pattern ↔ ∃ pieces : Braced false, pieces.text = pattern := by
  constructor
  · exact exists_braced
  · rintro ⟨pieces, rfl⟩
    simpa [IsBalanced, closesAll] using pieces.closesAll_append 0 []

/-- Expanding ends with patterns in which no group is closed.  The patterns with balanced
braces are those that are read as trees, and a tree expands to the texts that it stands
for. -/
theorem expand_spec (pattern : List Char) :
    (expand pattern ≠ [] ∧ ∀ expanded ∈ expand pattern, ¬HasGroup expanded) ∧
    (IsBalanced pattern ↔ ∃ pieces : Braced false, pieces.text = pattern) ∧
    ∀ pieces : Braced false, pieces.text = pattern →
      {text | text ∈ expand pattern} = pieces.language := by
  obtain ⟨ne_nil, free⟩ := expand_free pattern
  refine ⟨⟨ne_nil, fun expanded member => group?_eq_none_iff.mp (free expanded member)⟩,
    isBalanced_iff, ?_⟩
  rintro pieces rfl
  ext text
  have isFree : group? [] = none := rfl
  have isExpansion := pieces.mem_expand [] text isFree
  simp only [List.nil_append, List.append_nil] at isExpansion
  change text ∈ expand pieces.text ↔ text ∈ pieces.language
  rw [isExpansion]
  have single {inner : List Char} (isInner : inner ∈ pieces.language) : expand inner = [inner] :=
    expand_of_none (group?_eq_none_of_notMem (closing_notMem (pieces.isOrdinary_of_mem isInner)))
  constructor
  · rintro ⟨inner, isInner, member⟩
    obtain rfl : text = inner := by simpa [single isInner] using member
    exact isInner
  · exact fun isText => ⟨text, isText, by simp [single isText]⟩

/-- A group in an option of a group, with an empty option and blanks on both levels. -/
def sampleBraced : Braced false :=
  .group
    (.more (.char 'a' rfl .nil)
      (.last (.char ' ' rfl (.group (.more (.char 'b' rfl .nil) (.last (.char ' ' rfl .nil)))
        (.char 'c' rfl (.char ' ' rfl .nil))))))
    (.char '.' rfl (.char 'x' rfl .nil))

theorem expand_sampleBraced :
    sampleBraced.text = "\x7ba, \x7bb, \x7dc \x7d.x".toList ∧ IsBalanced sampleBraced.text ∧
    sampleBraced.language = {text | text ∈ ["a.x".toList, "bc.x".toList, "c.x".toList]} ∧
    ∀ expanded ∈ expand sampleBraced.text, ¬HasGroup expanded := by
  obtain ⟨⟨-, free⟩, balanced, language⟩ := expand_spec sampleBraced.text
  have expansions : expand sampleBraced.text =
      ["a.x".toList, "bc.x".toList, "a.x".toList, "c.x".toList] := by decide +kernel
  refine ⟨rfl, balanced.mpr ⟨sampleBraced, rfl⟩, ?_, free⟩
  rw [← language sampleBraced rfl, expansions]
  ext text
  change text ∈ [_, _, _, _] ↔ text ∈ [_, _, _]
  simp only [List.mem_cons, List.not_mem_nil]
  tauto

end ComponentAtlas.Path
