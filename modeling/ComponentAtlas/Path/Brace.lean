/-
Module: ComponentAtlas.Path.Brace
Purpose: Groups of options in path patterns.
Main exports:
  Group, group?, expand
-/
import ComponentAtlas.Text.Blank

namespace ComponentAtlas.Path

open ComponentAtlas.Text

/-!
A pattern such as `*.{tsx,jsx}` stands for one pattern an option.  The first
group without braces inside is expanded first, so groups inside groups work from
the inside out.  Every step removes one pair of braces and adds none.
-/

/-- A pattern around its first group of options. -/
structure Group where
  head : List Char
  inner : List Char
  tail : List Char
deriving Repr, DecidableEq

def isPlain (c : Char) : Bool := c ≠ '{' && c ≠ '}'

/-- The text from a brace on is closed by the next brace. -/
def closesAt (rest : List Char) : Bool := (rest.dropWhile isPlain).head? = some '}'

def group? : List Char → Option Group
  | [] => none
  | c :: rest =>
    if c = '{' && closesAt rest then
      some { head := [], inner := rest.takeWhile isPlain, tail := (rest.dropWhile isPlain).tail }
    else (group? rest).map fun group => { group with head := c :: group.head }

/-- The pattern in which a group is replaced by one of its options. -/
def Group.choose (group : Group) (option : List Char) : List Char :=
  group.head ++ trim option ++ group.tail

def Group.options (group : Group) : List (List Char) := splitWhere (· = ',') group.inner

/-- The group with its braces stands in the pattern, and has no braces inside. -/
theorem eq_of_group? {pattern : List Char} {group : Group} (h : group? pattern = some group) :
    pattern = group.head ++ '{' :: group.inner ++ '}' :: group.tail ∧
      group.inner.all isPlain = true := by
  induction pattern generalizing group with
  | nil => simp [group?] at h
  | cons c rest ih =>
    rw [group?] at h
    split at h
    · rename_i hc
      simp only [Bool.and_eq_true, decide_eq_true_eq] at hc
      obtain ⟨rfl, hclose⟩ := hc
      cases h
      have hcut := List.takeWhile_append_dropWhile (p := isPlain) (l := rest)
      rw [closesAt, decide_eq_true_eq] at hclose
      cases hd : rest.dropWhile isPlain with
      | nil => simp [hd] at hclose
      | cons d tail =>
        simp only [hd, List.head?_cons, Option.some.injEq] at hclose
        subst hclose
        rw [hd] at hcut
        simp only [List.nil_append, List.tail_cons, List.cons_append, List.all_takeWhile, and_true]
        exact congrArg _ hcut.symm
    · obtain ⟨inner, hinner, rfl⟩ := Option.map_eq_some_iff.1 h
      obtain ⟨heq, hplain⟩ := ih hinner
      exact ⟨by simp [heq], hplain⟩

/-- An option holds only characters of the text that was divided. -/
theorem mem_of_mem_splitWhere {p : Char → Bool} {text piece : List Char} {c : Char}
    (h : piece ∈ splitWhere p text) (hc : c ∈ piece) : c ∈ text := by
  induction text generalizing piece with
  | nil => simp [splitWhere] at h; simp [h] at hc
  | cons d rest ih =>
    rw [splitWhere] at h
    split at h
    · rcases List.mem_cons.1 h with rfl | h
      · simp at hc
      · exact List.mem_cons_of_mem _ (ih h hc)
    · split at h
      · simp at h
        subst h
        simp at hc
        simp [hc]
      · rename_i first others heq
        rcases List.mem_cons.1 h with rfl | h
        · rcases List.mem_cons.1 hc with rfl | hc
          · simp
          · exact List.mem_cons_of_mem _ (ih (by simp [heq]) hc)
        · exact List.mem_cons_of_mem _ (ih (by simp [heq, h]) hc)

/-- Trimming adds no character. -/
theorem mem_of_mem_trim {text : List Char} {c : Char} (h : c ∈ trim text) : c ∈ text := by
  simp only [trim, trimRight, trimLeft, dropRightWhile, List.mem_reverse] at h
  have h := (List.dropWhile_sublist _).mem h
  exact (List.dropWhile_sublist _).mem (List.mem_reverse.1 h)

/-- An option of the first group leaves one brace fewer to open a group. -/
theorem count_choose_lt {pattern option : List Char} {group : Group}
    (h : group? pattern = some group) (ho : option ∈ group.options) :
    (group.choose option).count '{' < pattern.count '{' := by
  obtain ⟨heq, hplain⟩ := eq_of_group? h
  have hnone : (trim option).count '{' = 0 := by
    rw [List.count_eq_zero]
    intro hc
    have := List.all_eq_true.1 hplain _ (mem_of_mem_splitWhere ho (mem_of_mem_trim hc))
    simp [isPlain] at this
  rw [heq, Group.choose]
  simp only [List.count_append, List.count_cons, hnone]
  simp only [beq_self_eq_true, if_true]
  omega

/-- All patterns without groups that a pattern stands for. -/
def expand (pattern : List Char) : List (List Char) :=
  match h : group? pattern with
  | none => [pattern]
  | some group =>
    group.options.attach.flatMap fun ⟨option, ho⟩ =>
      have := count_choose_lt h ho
      expand (group.choose option)
termination_by pattern.count '{'

end ComponentAtlas.Path
