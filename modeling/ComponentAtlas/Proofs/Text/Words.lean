/-
Module: ComponentAtlas.Proofs.Text.Words
Purpose: What trimming and collapsing do to the blanks of a text and leave of the rest.
Main exports:
  splitWhere_append_cons, trim_of_blanks, exists_trim, words_append_blank, collapse_cons,
  count_collapse, isTrimmed_collapse, collapse_eq_self
-/
import Mathlib.Data.List.DropRight
import ComponentAtlas.Text.Blank

namespace ComponentAtlas.Text

section

variable {p : Char → Bool} {separator : Char} {text : List Char}

theorem splitWhere_ne_nil (p : Char → Bool) (text : List Char) : splitWhere p text ≠ [] := by
  cases text with
  | nil => simp [splitWhere]
  | cons c rest =>
      rw [splitWhere]
      split
      · simp
      · split <;> simp

/-- A character that is no separator belongs to the first piece. -/
theorem splitWhere_cons_other {c : Char} (other : p c = false) (text : List Char) :
    ∃ piece pieces, splitWhere p text = piece :: pieces ∧
      splitWhere p (c :: text) = (c :: piece) :: pieces := by
  cases pieces : splitWhere p text with
  | nil => exact absurd pieces (splitWhere_ne_nil _ _)
  | cons piece others => exact ⟨piece, others, rfl, by simp [splitWhere, other, pieces]⟩

/-- A separator divides the pieces into those before and those after it. -/
theorem splitWhere_append_cons (isSeparator : p separator) (before after : List Char) :
    splitWhere p (before ++ separator :: after) = splitWhere p before ++ splitWhere p after := by
  induction before with
  | nil => simp [splitWhere, isSeparator]
  | cons c rest ih =>
      rw [List.cons_append, splitWhere, splitWhere, ih]
      split
      · rfl
      · cases pieces : splitWhere p rest with
        | nil => exact absurd pieces (splitWhere_ne_nil p rest)
        | cons piece others => simp

/-- No piece holds a separator. -/
theorem mem_splitWhere {piece : List Char} (member : piece ∈ splitWhere p text) :
    ∀ c ∈ piece, p c = false := by
  induction text generalizing piece with
  | nil => simp [splitWhere] at member; simp [member]
  | cons c rest ih =>
      cases isSeparator : p c with
      | true =>
          rw [splitWhere, if_pos isSeparator] at member
          rcases List.mem_cons.mp member with rfl | later
          · simp
          · exact ih later
      | false =>
          obtain ⟨first, others, isRest, isWhole⟩ := splitWhere_cons_other isSeparator rest
          rw [isWhole] at member
          rcases List.mem_cons.mp member with rfl | later
          · have ofRest : ∀ d ∈ first, p d = false := ih (isRest ▸ List.mem_cons_self)
            exact List.forall_mem_cons.mpr ⟨isSeparator, ofRest⟩
          · exact ih (isRest ▸ List.mem_cons_of_mem first later)

theorem splitWhere_of_none (none : ∀ c ∈ text, ¬ p c) : splitWhere p text = [text] := by
  induction text with
  | nil => rfl
  | cons c rest ih =>
      rw [splitWhere, ih fun d member => none d (List.mem_cons_of_mem c member)]
      simp [none c]

end

/-!
Trimming takes away the blanks at the ends, and nothing else.
-/

section

variable {p : Char → Bool} {text before after : List Char}

theorem dropWhile_append_of_all (all : before.all p) :
    (before ++ text).dropWhile p = text.dropWhile p := by
  rw [List.dropWhile_append_of_pos (by simpa using all)]

theorem dropRightWhile_append_of_all (all : after.all p) :
    dropRightWhile p (text ++ after) = dropRightWhile p text := by
  rw [dropRightWhile, List.reverse_append, dropWhile_append_of_all (by simpa using all)]
  rfl

/-- What passes a test in front of what does not is exactly what is taken. -/
theorem takeWhile_append_stop {rest : List Char} (all : ∀ c ∈ text, p c)
    (stop : ∀ c ∈ rest.head?, p c = false) :
    (text ++ rest).takeWhile p = text ∧ (text ++ rest).dropWhile p = rest := by
  rw [List.takeWhile_append_of_pos all, List.dropWhile_append_of_pos all]
  cases rest with
  | nil => simp
  | cons c rest => simp [stop c rfl]

theorem dropWhile_eq_self (head : ∀ c ∈ text.head?, p c = false) : text.dropWhile p = text := by
  cases text with
  | nil => rfl
  | cons c rest => simp [head c rfl]

theorem dropRightWhile_eq_self (last : ∀ c ∈ text.getLast?, p c = false) :
    dropRightWhile p text = text := by
  rw [dropRightWhile, dropWhile_eq_self (by simpa using last), List.reverse_reverse]

theorem dropRightWhile_cons (p : Char → Bool) (c : Char) (text : List Char) :
    dropRightWhile p (c :: text) =
      if text.all p then dropRightWhile p [c] else c :: dropRightWhile p text := by
  rw [dropRightWhile, List.reverse_cons, List.dropWhile_append]
  by_cases all : text.all p
  · have : text.reverse.dropWhile p = [] := by simpa using all
    simp [this, all, dropRightWhile]
  · have : text.reverse.dropWhile p ≠ [] := by simpa using all
    simp [this, all, dropRightWhile]

end

theorem ne_of_isBlank {c other : Char} (blank : isBlank c) (word : isBlank other = false) :
    c ≠ other := by
  rintro rfl
  rw [blank] at word
  cases word

/-- Neither end of the text is a blank. -/
def IsTrimmed (text : List Char) : Prop :=
  (∀ c ∈ text.head?, isBlank c = false) ∧ ∀ c ∈ text.getLast?, isBlank c = false

section

variable {text before after : List Char}

theorem trimLeft_cons {c : Char} (blank : isBlank c) (word : ∀ d ∈ text.head?, isBlank d = false) :
    trimLeft (c :: text) = text := by
  rw [trimLeft, List.dropWhile_cons, if_pos blank, dropWhile_eq_self word]

theorem trim_eq_self (trimmed : IsTrimmed text) : trim text = text := by
  rw [trim, trimLeft, dropWhile_eq_self trimmed.1, trimRight, dropRightWhile_eq_self trimmed.2]

theorem isAllBlank_append (text after : List Char) :
    isAllBlank (text ++ after) = (isAllBlank text && isAllBlank after) := List.all_append

theorem trim_append_of_isAllBlank (isBefore : isAllBlank before) (text : List Char) :
    trim (before ++ text) = trim text := by
  rw [trim, trimLeft, dropWhile_append_of_all isBefore]
  rfl

theorem trim_of_blanks (trimmed : IsTrimmed text) (isBefore : isAllBlank before)
    (isAfter : isAllBlank after) : trim (before ++ text ++ after) = text := by
  rw [trim, trimLeft, List.append_assoc, dropWhile_append_of_all isBefore]
  cases text with
  | nil =>
      rw [List.nil_append, List.dropWhile_eq_nil_iff.mpr (by simpa [isAllBlank] using isAfter)]
      rfl
  | cons c rest =>
      rw [dropWhile_eq_self (by simpa using trimmed.1), trimRight,
        dropRightWhile_append_of_all isAfter, dropRightWhile_eq_self trimmed.2]

theorem trimLeft_append_cons {c : Char} (blank : isAllBlank before) (word : isBlank c = false)
    (rest : List Char) : trimLeft (before ++ c :: rest) = c :: rest := by
  rw [trimLeft, dropWhile_append_of_all blank]
  exact dropWhile_eq_self (by simpa using word)

/-- On the left only blanks are trimmed. -/
theorem exists_trimLeft (text : List Char) :
    ∃ gap, isAllBlank gap ∧ text = gap ++ trimLeft text :=
  ⟨text.takeWhile isBlank, List.all_takeWhile, List.takeWhile_append_dropWhile.symm⟩

/-- On the right only blanks are trimmed. -/
theorem exists_trimRight (text : List Char) :
    ∃ after, isAllBlank after ∧ text = trimRight text ++ after :=
  ⟨text.rtakeWhile isBlank, List.all_eq_true.mpr fun _ member => List.mem_rtakeWhile_imp member,
    List.rdropWhile_append_rtakeWhile.symm⟩

/-- Every text is its trimmed part between blanks. -/
theorem exists_trim (text : List Char) :
    ∃ before after, isAllBlank before ∧ isAllBlank after ∧
      text = before ++ trim text ++ after := by
  obtain ⟨after, isAfter, divided⟩ := exists_trimRight (trimLeft text)
  refine ⟨text.takeWhile isBlank, after, ?_, isAfter, ?_⟩
  · simp [isAllBlank, List.all_takeWhile]
  · rw [List.append_assoc, trim, ← divided, trimLeft, List.takeWhile_append_dropWhile]

theorem isBlank_of_head?_trimLeft {c : Char} (isHead : (trimLeft text).head? = some c) :
    isBlank c = false := by
  have := List.head?_dropWhile_not isBlank text
  rwa [show text.dropWhile isBlank = trimLeft text from rfl, isHead] at this

theorem isBlank_of_getLast?_trimRight {c : Char} (isLast : (trimRight text).getLast? = some c) :
    isBlank c = false := by
  obtain ⟨ne_nil, rfl⟩ := List.mem_getLast?_eq_getLast isLast
  rw [← Bool.not_eq_true]
  exact List.rdropWhile_last_not isBlank text ne_nil

theorem isTrimmed_trim (text : List Char) : IsTrimmed (trim text) := by
  refine ⟨fun c isHead => ?_, fun c isLast => isBlank_of_getLast?_trimRight isLast⟩
  have isPrefix : trim text <+: trimLeft text := List.rdropWhile_prefix _ _
  obtain ⟨rest, same⟩ := isPrefix
  refine @isBlank_of_head?_trimLeft text c ?_
  rw [← same, List.head?_append, isHead]
  rfl

theorem trim_eq_nil_iff : trim text = [] ↔ isAllBlank text := by
  refine ⟨fun none => ?_, fun blank => ?_⟩
  · obtain ⟨before, after, isBefore, isAfter, divided⟩ := exists_trim text
    rw [divided, none, List.append_nil, isAllBlank_append, isBefore, isAfter]
    rfl
  · have left : trimLeft text = [] := by
      rw [trimLeft, List.dropWhile_eq_nil_iff]
      simpa [isAllBlank] using blank
    rw [trim, left]
    rfl

theorem trim_append_blanks (isAfter : isAllBlank after) : trim (text ++ after) = trim text := by
  obtain ⟨before, behind, isBefore, isBehind, divided⟩ := exists_trim text
  have allBehind : isAllBlank (behind ++ after) := by
    rw [isAllBlank_append, isBehind, isAfter]
    rfl
  conv_lhs => rw [divided, List.append_assoc]
  exact trim_of_blanks (isTrimmed_trim text) isBefore allBehind

theorem trim_trimRight (text : List Char) : trim (trimRight text) = trim text := by
  obtain ⟨after, isAfter, divided⟩ := exists_trimRight text
  conv_rhs => rw [divided]
  exact (trim_append_blanks isAfter).symm

theorem trimRight_append_of_not_blank (notBlank : ¬ isAllBlank after) :
    trimRight (text ++ after) = text ++ trimRight after := by
  have ne_nil : after.reverse.dropWhile isBlank ≠ [] := by
    rw [Ne, List.dropWhile_eq_nil_iff]
    simpa [isAllBlank] using notBlank
  rw [trimRight, dropRightWhile, List.reverse_append, List.dropWhile_append,
    if_neg (by simpa using ne_nil), List.reverse_append, List.reverse_reverse]
  rfl

theorem trimRight_append_cons {c : Char} (word : isBlank c = false) (text after : List Char) :
    trimRight (text ++ c :: after) = text ++ c :: trimRight after := by
  have notBlank : ¬ isAllBlank (c :: after) := by simp [isAllBlank, word]
  rw [trimRight_append_of_not_blank notBlank, trimRight, dropRightWhile_cons]
  split
  case isTrue allBlank =>
    have none : trimRight after = [] := by
      rw [trimRight, dropRightWhile, List.reverse_eq_nil_iff, List.dropWhile_eq_nil_iff]
      simpa using allBlank
    simp [none, dropRightWhile, word]
  case isFalse => rfl

theorem head?_trim (text : List Char) : (trim text).head? = (trimLeft text).head? := by
  rw [trim, trimRight]
  cases left : trimLeft text with
  | nil => rfl
  | cons c rest =>
      have word : isBlank c = false := isBlank_of_head?_trimLeft (by rw [left]; rfl)
      rw [dropRightWhile_cons]
      split
      · simp [dropRightWhile, word]
      · rfl

/-- From both sides of a text with blanks around it the same blanks go, whichever side
comes first. -/
theorem trimLeft_trimRight_append (isBefore : isAllBlank before) (isAfter : isAllBlank after)
    (notBlank : ¬ isAllBlank text) :
    trimLeft (trimRight (before ++ text ++ after)) = trim text := by
  have ne_nil : trim text ≠ [] := by rwa [Ne, trim_eq_nil_iff]
  have trimmed := isTrimmed_trim text
  obtain ⟨left, right, isLeft, isRight, divided⟩ := exists_trim text
  have regrouped : before ++ text ++ after =
      (before ++ left) ++ trim text ++ (right ++ after) := by
    conv_lhs => rw [divided]
    simp
  have allLeft : isAllBlank (before ++ left) := by rw [isAllBlank_append, isBefore, isLeft]; rfl
  have allRight : isAllBlank (right ++ after) := by rw [isAllBlank_append, isRight, isAfter]; rfl
  have last : ∀ c ∈ ((before ++ left) ++ trim text).getLast?, isBlank c = false := by
    rw [List.getLast?_append, List.getLast?_eq_some_getLast ne_nil]
    simpa [List.getLast?_eq_some_getLast ne_nil] using trimmed.2
  rw [regrouped, trimRight, dropRightWhile_append_of_all allRight, dropRightWhile_eq_self last,
    trimLeft, dropWhile_append_of_all allLeft, dropWhile_eq_self trimmed.1]

end

/-!
Collapsing goes on character by character: a word is copied, and blanks between two
words leave one space.
-/

section

variable {c d : Char} {text before after : List Char}

@[simp] theorem words_nil : words [] = [] := rfl

/-- A word holds something, and no blank. -/
theorem mem_words {word : List Char} (member : word ∈ words text) :
    word ≠ [] ∧ ∀ c ∈ word, isBlank c = false := by
  obtain ⟨isPiece, notEmpty⟩ := List.mem_filter.mp member
  exact ⟨by simpa using notEmpty, mem_splitWhere isPiece⟩

theorem words_append_blank (blank : isBlank c) (before after : List Char) :
    words (before ++ c :: after) = words before ++ words after := by
  rw [words, splitWhere_append_cons blank, List.filter_append]
  rfl

theorem words_cons_blank (blank : isBlank c) : words (c :: text) = words text :=
  words_append_blank blank [] text

theorem words_of_isAllBlank (blank : isAllBlank text) : words text = [] := by
  induction text with
  | nil => rfl
  | cons c rest ih =>
      simp only [isAllBlank, List.all_cons, Bool.and_eq_true] at blank
      rw [words_cons_blank blank.1]
      exact ih blank.2

theorem words_append_of_isAllBlank (blank : isAllBlank after) :
    words (text ++ after) = words text := by
  cases after with
  | nil => rw [List.append_nil]
  | cons c rest =>
      simp only [isAllBlank, List.all_cons, Bool.and_eq_true] at blank
      rw [words_append_blank blank.1, words_of_isAllBlank blank.2, List.append_nil]

theorem words_of_isAllBlank_append (blank : isAllBlank before) :
    words (before ++ text) = words text := by
  induction before with
  | nil => rfl
  | cons c rest ih =>
      simp only [isAllBlank, List.all_cons, Bool.and_eq_true] at blank
      rw [List.cons_append, words_cons_blank blank.1]
      exact ih blank.2

@[simp] theorem words_trim (text : List Char) : words (trim text) = words text := by
  obtain ⟨before, after, isBefore, isAfter, divided⟩ := exists_trim text
  conv_rhs => rw [divided]
  rw [words_append_of_isAllBlank isAfter, words_of_isAllBlank_append isBefore]

@[simp] theorem collapse_trim (text : List Char) : collapse (trim text) = collapse text := by
  rw [collapse, words_trim, collapse]

/-- A character in front of a word becomes its first one. -/
theorem words_cons_cons (first : isBlank c = false) (second : isBlank d = false) :
    ∃ word others, words (d :: text) = word :: others ∧
      words (c :: d :: text) = (c :: word) :: others := by
  obtain ⟨piece, pieces, _, isNext⟩ := splitWhere_cons_other second text
  obtain ⟨word, others, same, isWhole⟩ := splitWhere_cons_other first (d :: text)
  rw [isNext] at same
  cases same
  exact ⟨d :: piece, pieces.filter (!·.isEmpty), by simp [words, isNext],
    by simp [words, isWhole]⟩

/-- A character in front of a blank is a word of its own. -/
theorem words_cons_of_blank (word : isBlank c = false) (blank : text.head?.all isBlank) :
    words (c :: text) = [c] :: words text := by
  cases text with
  | nil => simp [words, splitWhere, word]
  | cons d rest =>
      have blank : isBlank d := by simpa using blank
      rw [← List.singleton_append, words_append_blank blank, words_cons_blank blank]
      simp [words, splitWhere, word]

theorem collapse_cons_blank (blank : isBlank c) : collapse (c :: text) = collapse text := by
  rw [collapse, words_cons_blank blank, collapse]

theorem words_eq_nil_iff : words text = [] ↔ isAllBlank text := by
  refine ⟨fun none => ?_, words_of_isAllBlank⟩
  induction text with
  | nil => rfl
  | cons c rest ih =>
      cases blank : isBlank c with
      | true =>
          rw [words_cons_blank blank] at none
          simpa [isAllBlank, blank] using ih none
      | false =>
          obtain ⟨piece, pieces, _, isWhole⟩ := splitWhere_cons_other blank rest
          simp [words, isWhole] at none

/-- A word is copied, and the blanks behind it leave one space if another word
follows. -/
theorem collapse_cons (word : isBlank c = false) (text : List Char) :
    collapse (c :: text) =
      if isAllBlank text then [c]
      else if text.head?.all isBlank then c :: ' ' :: collapse text
      else c :: collapse text := by
  split
  case isTrue blank =>
    have alone : words ([c] ++ text) = words [c] := words_append_of_isAllBlank blank
    rw [collapse, show c :: text = [c] ++ text from rfl, alone]
    simp [words, splitWhere, word, joinWith]
  case isFalse notBlank =>
    have ne_nil : words text ≠ [] := by rwa [Ne, words_eq_nil_iff]
    split
    case isTrue blank =>
      rw [collapse, words_cons_of_blank word blank, joinWith.eq_3 _ _ _ ne_nil]
      rfl
    case isFalse notBlank =>
      cases text with
      | nil => simp at notBlank
      | cons d rest =>
          have second : isBlank d = false := by simpa using notBlank
          obtain ⟨first, others, isNext, isWhole⟩ := @words_cons_cons c d rest word second
          rw [collapse, collapse, isNext, isWhole]
          cases others <;> rfl

/-- Only blanks are changed. -/
theorem count_collapse (word : isBlank c = false) (text : List Char) :
    (collapse text).count c = text.count c := by
  have notSpace : (' ' : Char) ≠ c := by rintro rfl; cases word
  induction text with
  | nil => rfl
  | cons d rest ih =>
      cases blank : isBlank d with
      | true =>
          have differs : d ≠ c := by rintro rfl; rw [blank] at word; cases word
          rw [collapse_cons_blank blank, ih, List.count_cons_of_ne differs]
      | false =>
          rw [collapse_cons blank]
          split
          case isTrue allBlank =>
            have none : rest.count c = 0 := by
              refine List.count_eq_zero.mpr fun member => ?_
              have := List.all_eq_true.mp allBlank c member
              rw [this] at word
              cases word
            simp [List.count_cons, none]
          case isFalse =>
            split <;> simp [List.count_cons, ih, notSpace]

theorem collapse_eq_nil_iff : collapse text = [] ↔ isAllBlank text := by
  refine ⟨fun none => ?_, fun blank => by rw [collapse, words_of_isAllBlank blank, joinWith]⟩
  induction text with
  | nil => rfl
  | cons c rest ih =>
      cases blank : isBlank c with
      | true =>
          rw [collapse_cons_blank blank] at none
          simpa [isAllBlank, blank] using ih none
      | false =>
          rw [collapse_cons blank] at none
          split at none
          · cases none
          · split at none <;> cases none

theorem getLast?_cons_of_ne_nil {rest : List Char} (c : Char) (ne_nil : rest ≠ []) :
    (c :: rest).getLast? = rest.getLast? := by
  simp [List.getLast?_cons, List.getLast?_eq_some_getLast ne_nil]

/-- The last character is the last one that is no blank. -/
theorem getLast?_collapse (text : List Char) :
    (collapse text).getLast? = (trimRight text).getLast? := by
  induction text with
  | nil => rfl
  | cons c rest ih =>
      rw [trimRight, dropRightWhile_cons, show rest.all isBlank = isAllBlank rest from rfl]
      by_cases allBlank : isAllBlank rest
      · cases blank : isBlank c with
        | true =>
            rw [collapse_cons_blank blank, collapse_eq_nil_iff.mpr allBlank]
            simp [allBlank, dropRightWhile, blank]
        | false =>
            rw [collapse_cons blank]
            simp [allBlank, dropRightWhile, blank]
      · have collapsed : collapse rest ≠ [] := by rwa [Ne, collapse_eq_nil_iff]
        have trimmed : dropRightWhile isBlank rest ≠ [] := by
          rw [Ne, dropRightWhile, List.reverse_eq_nil_iff, List.dropWhile_eq_nil_iff]
          simpa [isAllBlank] using allBlank
        rw [if_neg allBlank, getLast?_cons_of_ne_nil c trimmed]
        cases blank : isBlank c with
        | true => rw [collapse_cons_blank blank, ih, trimRight]
        | false =>
            rw [collapse_cons blank, if_neg allBlank]
            split
            · rw [getLast?_cons_of_ne_nil c (by simp), getLast?_cons_of_ne_nil _ collapsed, ih,
                trimRight]
            · rw [getLast?_cons_of_ne_nil c collapsed, ih, trimRight]

/-- The first character is the first one that is no blank. -/
theorem head?_collapse (text : List Char) : (collapse text).head? = (trimLeft text).head? := by
  induction text with
  | nil => rfl
  | cons c rest ih =>
      cases blank : isBlank c with
      | true =>
          simp only [collapse_cons_blank blank, ih, trimLeft, List.dropWhile_cons, blank, if_true]
      | false =>
          rw [collapse_cons blank]
          simp only [trimLeft, List.dropWhile_cons, blank, Bool.false_eq_true, if_false]
          split
          · rfl
          · split <;> rfl

theorem isTrimmed_collapse (text : List Char) : IsTrimmed (collapse text) := by
  refine ⟨fun c isHead => ?_, fun c isLast => ?_⟩
  · exact isBlank_of_head?_trimLeft (head?_collapse text ▸ isHead)
  · exact isBlank_of_getLast?_trimRight (getLast?_collapse text ▸ isLast)

/-- Trimming and collapsing end with the same character. -/
theorem getLast?_trim (text : List Char) : (trim text).getLast? = (collapse text).getLast? := by
  rw [← collapse_trim, getLast?_collapse, trimRight,
    dropRightWhile_eq_self (isTrimmed_trim text).2]

/-- A text in which single spaces are the only blanks, and none at the end, only loses a
space in front. -/
theorem collapse_eq_trimLeft (last : ∀ c ∈ text.getLast?, isBlank c = false)
    (single : text.IsChain fun c d => isBlank c → c = ' ' ∧ isBlank d = false) :
    collapse text = trimLeft text := by
  induction text with
  | nil => rfl
  | cons c rest ih =>
      cases rest with
      | nil =>
          have word : isBlank c = false := last c rfl
          rw [collapse_cons word]
          simp [trimLeft, word, isAllBlank]
      | cons d rest =>
          rw [List.isChain_cons_cons] at single
          have ih := ih (by simpa using last) single.2
          cases blank : isBlank c with
          | true =>
              rw [collapse_cons_blank blank, ih]
              simp only [trimLeft, List.dropWhile_cons, blank, if_true]
          | false =>
              have notAllBlank : ¬ isAllBlank (d :: rest) := by
                intro allBlank
                have isLast := List.getLast?_eq_some_getLast (List.cons_ne_nil d rest)
                have word := last _ (by rw [List.getLast?_cons_cons]; exact isLast)
                rw [List.all_eq_true.mp allBlank _ (List.getLast_mem _)] at word
                cases word
              rw [collapse_cons blank, if_neg notAllBlank, ih]
              cases gap : isBlank d with
              | false => simp [trimLeft, blank, gap]
              | true =>
                  cases rest with
                  | nil => exact absurd (last d rfl) (by simp [gap])
                  | cons e rest =>
                      obtain ⟨rfl, word⟩ := (List.isChain_cons_cons.mp single.2).1 gap
                      simp [trimLeft, blank, gap, word]

/-- A text in which single spaces are the only blanks, and none at the ends, is left as
it is. -/
theorem collapse_eq_self (trimmed : IsTrimmed text)
    (single : text.IsChain fun c d => isBlank c → c = ' ' ∧ isBlank d = false) :
    collapse text = text := by
  rw [collapse_eq_trimLeft trimmed.2 single, trimLeft, dropWhile_eq_self trimmed.1]

end

end ComponentAtlas.Text
