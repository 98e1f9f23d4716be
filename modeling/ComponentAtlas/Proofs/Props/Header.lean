/-
Module: ComponentAtlas.Proofs.Props.Header
Purpose: The header of a declaration, told by the text in front of its brace.
Main exports:
  declarationHeader_append, exists_brace, isPlain_interfaceHeader, isPlain_aliasHeader
-/
import ComponentAtlas.Proofs.Source.Undisturbed
import ComponentAtlas.Proofs.Text.Words
import ComponentAtlas.Props.Header

namespace ComponentAtlas.Props

open ComponentAtlas.Text
open ComponentAtlas.Source

/-!
The header of a declaration is known by the text before its brace.
-/

section

variable {p : Char → Bool} {c d : Char} {before : Option Char} {keyword : String}
  {start text tail rest : List Char} {isTail : List Char → Bool}

theorem takeWhile_append_cons (stop : p d = false) (text rest : List Char) :
    (text ++ d :: rest).takeWhile p = text.takeWhile p := by
  induction text with
  | nil => simp [stop]
  | cons c text ih => simp [List.takeWhile_cons, ih]

theorem dropWhile_append_cons (stop : p d = false) (text rest : List Char) :
    (text ++ d :: rest).dropWhile p = text.dropWhile p ++ d :: rest := by
  induction text with
  | nil => simp [stop]
  | cons c text ih =>
      rw [List.cons_append, List.dropWhile_cons, List.dropWhile_cons, ih]
      split <;> rfl

theorem after?_append_cons (other : d ∉ start) (text rest : List Char) :
    after? start (text ++ d :: rest) = (after? start text).map (· ++ d :: rest) := by
  cases isAfter : after? start text with
  | some behind =>
      rw [after?_eq_some] at isAfter
      rw [isAfter, List.append_assoc, after?_append]
      rfl
  | none =>
      cases isLonger : after? start (text ++ d :: rest) with
      | none => rfl
      | some behind =>
          rw [after?_eq_some] at isLonger
          rcases List.append_eq_append_iff.mp isLonger with ⟨more, isStart, divided⟩ | ⟨more, isText, -⟩
          · cases more with
            | nil =>
                have found : after? start text = some [] :=
                  after?_eq_some.mpr (by rw [isStart, List.append_nil, List.append_nil])
                rw [isAfter] at found
                cases found
            | cons first more =>
                obtain ⟨rfl, -⟩ := List.cons.inj divided
                exact absurd (by simp [isStart]) other
          · rw [isText, after?_append] at isAfter
            cases isAfter

theorem afterKeyword?_append (noBrace : '{' ∉ keyword.toList) (text rest : List Char) :
    afterKeyword? keyword before (text ++ '{' :: rest) =
      (afterKeyword? keyword before text).map (· ++ '{' :: rest) := by
  unfold afterKeyword?
  rw [after?_append_cons noBrace]
  split
  case isFalse => rfl
  case isTrue =>
    cases after? keyword.toList text with
    | none => rfl
    | some behind =>
        have sameHead : (behind ++ '{' :: rest).head?.any isBlank = behind.head?.any isBlank := by
          cases behind <;> rfl
        have left : trimLeft (behind ++ '{' :: rest) = trimLeft behind ++ '{' :: rest :=
          dropWhile_append_cons rfl behind rest
        simp only [Option.map_some, sameHead, left]
        split <;> rfl

theorem afterPropsName?_append (text rest : List Char) :
    afterPropsName? (text ++ '{' :: rest) = (afterPropsName? text).map (· ++ '{' :: rest) := by
  have brace : isWord '{' = false := by decide
  rw [afterPropsName?, takeWhile_append_cons brace, dropWhile_append_cons brace, afterPropsName?]
  split <;> rfl

theorem notMem_of_afterKeyword? (noBrace : '{' ∉ text)
    (isTail : afterKeyword? keyword before text = some tail) : '{' ∉ tail := by
  unfold afterKeyword? at isTail
  split at isTail
  · cases isAfter : after? keyword.toList text with
    | none =>
        rw [isAfter] at isTail
        cases isTail
    | some behind =>
        rw [isAfter] at isTail
        rw [after?_eq_some] at isAfter
        simp only [Option.ite_none_right_eq_some, Option.some.injEq] at isTail
        rw [← isTail.2]
        intro member
        refine noBrace ?_
        rw [isAfter]
        exact List.mem_append_right _ (List.dropWhile_suffix _ |>.mem member)
  · cases isTail

theorem notMem_of_afterPropsName? (noBrace : '{' ∉ text)
    (isTail : afterPropsName? text = some tail) : '{' ∉ tail := by
  simp only [afterPropsName?, Option.ite_none_right_eq_some, Option.some.injEq] at isTail
  rw [← isTail.2]
  exact fun member => noBrace (List.dropWhile_suffix _ |>.mem member)

/-- The text between the name and the brace. -/
def betweenNameAndBrace (keyword : String) (before : Option Char) (lead : List Char) :
    Option (List Char) :=
  (afterKeyword? keyword before lead).bind afterPropsName?

theorem notMem_of_betweenNameAndBrace (noBrace : '{' ∉ text)
    (isTail : betweenNameAndBrace keyword before text = some tail) : '{' ∉ tail := by
  obtain ⟨behind, isBehind, isTail⟩ := Option.bind_eq_some_iff.mp isTail
  exact notMem_of_afterPropsName? (notMem_of_afterKeyword? noBrace isBehind) isTail

/-- Behind the first brace the header does not look. -/
theorem declarationHeader_append (noKeywordBrace : '{' ∉ keyword.toList) (noBrace : '{' ∉ text)
    (rest : List Char) :
    declarationHeader keyword isTail before (text ++ '{' :: rest) =
      (betweenNameAndBrace keyword before text).bind fun tail =>
        if isTail tail then some (text.length + 1) else none := by
  have found : (afterKeyword? keyword before (text ++ '{' :: rest)).bind afterPropsName? =
      (betweenNameAndBrace keyword before text).map (· ++ '{' :: rest) := by
    rw [afterKeyword?_append noKeywordBrace, betweenNameAndBrace]
    cases afterKeyword? keyword before text with
    | none => rfl
    | some behind => exact afterPropsName?_append behind rest
  simp only [declarationHeader, Option.bind_eq_bind]
  rw [← Option.bind_assoc, found]
  cases isBetween : betweenNameAndBrace keyword before text with
  | none => rfl
  | some tail =>
      have noTailBrace := notMem_of_betweenNameAndBrace noBrace isBetween
      have plain : ∀ c ∈ tail, decide (c ≠ '{') := fun c member => by
        simpa using fun isBrace : c = '{' => noTailBrace (isBrace ▸ member)
      obtain ⟨taken, dropped⟩ := takeWhile_append_stop plain
        (show ∀ c ∈ ('{' :: rest).head?, decide (c ≠ '{') = false by simp)
      simp only [Option.map_some, Option.bind_some, taken, dropped]
      have length : (text ++ '{' :: rest).length - rest.length = text.length + 1 := by
        simp only [List.length_append, List.length_cons]
        omega
      rw [length]

theorem declarationHeader_of_noBrace (noBrace : '{' ∉ text) :
    declarationHeader keyword isTail before text = none := by
  simp only [declarationHeader, Option.bind_eq_bind]
  rw [← Option.bind_assoc]
  cases isBetween : (afterKeyword? keyword before text).bind afterPropsName? with
  | none => rfl
  | some tail =>
      have noTailBrace := notMem_of_betweenNameAndBrace noBrace isBetween
      have none : tail.dropWhile (· ≠ '{') = [] := List.dropWhile_eq_nil_iff.mpr fun c member => by
        simpa using fun isBrace : c = '{' => noTailBrace (isBrace ▸ member)
      simp only [Option.bind_some, none]

/-- The header ends at the first brace. -/
theorem exists_brace {size : Nat} (noKeywordBrace : '{' ∉ keyword.toList)
    (found : declarationHeader keyword isTail before text = some size) :
    ∃ lead rest, '{' ∉ lead ∧ text = lead ++ '{' :: rest ∧ size = lead.length + 1 := by
  by_cases noBrace : '{' ∉ text
  · rw [declarationHeader_of_noBrace noBrace] at found
    cases found
  · obtain ⟨lead, rest, rfl, noLeadBrace⟩ := List.eq_append_cons_of_mem (not_not.mp noBrace)
    rw [declarationHeader_append noKeywordBrace noLeadBrace] at found
    obtain ⟨tail, -, isSize⟩ := Option.bind_eq_some_iff.mp found
    simp only [Option.ite_none_right_eq_some, Option.some.injEq] at isSize
    exact ⟨lead, rest, noLeadBrace, rfl, isSize.2.symm⟩

theorem isPlain_declarationHeader {more : List Char} (isKeyword : keyword.toList = c :: more)
    (notSlash : c ≠ '/') (noBrace : '{' ∉ keyword.toList) :
    (declarationHeader keyword isTail).IsPlain where
  positive {before text size} found := by
    obtain ⟨lead, rest, -, -, isSize⟩ := exists_brace noBrace found
    omega
  congr {before taken rest other} found _ := by
    obtain ⟨lead, behind, noLeadBrace, divided, isSize⟩ := exists_brace noBrace found
    have regrouped : taken ++ rest = (lead ++ ['{']) ++ behind := by rw [divided]; simp
    obtain ⟨rfl, rfl⟩ := List.append_inj regrouped (by simpa using isSize)
    rw [List.append_assoc, List.singleton_append, declarationHeader_append noBrace noLeadBrace] at *
    exact found
  notSlash {before rest} := by
    have noKeyword : after? keyword.toList ('/' :: rest) = none := by
      rw [isKeyword, after?, List.isPrefixOf_cons_cons, beq_eq_false_iff_ne.mpr notSlash]
      rfl
    have noName : afterKeyword? keyword before ('/' :: rest) = none := by
      rw [afterKeyword?, noKeyword]
      exact ite_self none
    simp [declarationHeader, noName]
  behindSlash := rfl

theorem isPlain_interfaceHeader : interfaceHeader.IsPlain :=
  isPlain_declarationHeader (show "interface".toList = 'i' :: "nterface".toList by decide)
    (by decide) (by decide)

theorem isPlain_aliasHeader : aliasHeader.IsPlain :=
  isPlain_declarationHeader (show "type".toList = 't' :: "ype".toList by decide) (by decide)
    (by decide)

end

end ComponentAtlas.Props
