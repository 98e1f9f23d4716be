/-
Module: ComponentAtlas.Proofs.Similarity.EditDistance
Purpose: The edit distance of two texts is the least number of single edits that lead from
  the one to the other.
Main exports:
  Edit, Script, steps, Script.steps_le, script_steps, rowBehind, editDistance_eq_steps,
  editDistance_isLeast
-/
import Mathlib.Order.Bounds.Basic
import ComponentAtlas.Similarity.EditDistance

namespace ComponentAtlas.Similarity

/-!
What turns one text into another: single edits at any places, in any order.
-/

/-- One character of a text is inserted, deleted or replaced. -/
inductive Edit : (before after : List Char) → Prop where
  | insertion (lead rest : List Char) (c : Char) : Edit (lead ++ rest) (lead ++ c :: rest)
  | deletion (lead rest : List Char) (c : Char) : Edit (lead ++ c :: rest) (lead ++ rest)
  | substitution (lead rest : List Char) (c d : Char) :
      Edit (lead ++ c :: rest) (lead ++ d :: rest)

/-- So many edits, one after the other, turn the first text into the second. -/
inductive Script : (count : Nat) → (left right : List Char) → Prop where
  | done (text : List Char) : Script 0 text text
  | step {count : Nat} {left between right : List Char} (edit : Edit left between)
      (later : Script count between right) : Script (count + 1) left right

section

variable {left between right : List Char} {count more : Nat}

theorem Edit.symm (edit : Edit left right) : Edit right left := by
  cases edit with
  | insertion lead rest c => exact .deletion lead rest c
  | deletion lead rest c => exact .insertion lead rest c
  | substitution lead rest c d => exact .substitution lead rest d c

theorem Edit.append_left (lead : List Char) (edit : Edit left right) :
    Edit (lead ++ left) (lead ++ right) := by
  cases edit with
  | insertion before rest c =>
      simpa using Edit.insertion (lead ++ before) rest c
  | deletion before rest c =>
      simpa using Edit.deletion (lead ++ before) rest c
  | substitution before rest c d =>
      simpa using Edit.substitution (lead ++ before) rest c d

theorem Edit.reverse (edit : Edit left right) : Edit left.reverse right.reverse := by
  cases edit with
  | insertion lead rest c =>
      simpa using Edit.insertion rest.reverse lead.reverse c
  | deletion lead rest c =>
      simpa using Edit.deletion rest.reverse lead.reverse c
  | substitution lead rest c d =>
      simpa using Edit.substitution rest.reverse lead.reverse c d

theorem Script.single (edit : Edit left right) : Script 1 left right := .step edit (.done right)

theorem Script.trans (first : Script count left between) (second : Script more between right) :
    Script (count + more) left right := by
  induction first with
  | done text => rwa [Nat.zero_add]
  | @step count left between right edit _ ih =>
      rw [Nat.succ_add]
      exact .step edit (ih second)

theorem Script.map {change : List Char → List Char}
    (keeps : ∀ {before after}, Edit before after → Edit (change before) (change after))
    (script : Script count left right) : Script count (change left) (change right) := by
  induction script with
  | done text => exact .done _
  | step edit _ ih => exact .step (keeps edit) ih

theorem Script.symm (script : Script count left right) : Script count right left := by
  induction script with
  | done text => exact .done text
  | step edit _ ih => exact ih.trans (.single edit.symm)

/-- Of two scripts the shorter one can be taken. -/
theorem Script.min (first : Script count left right) (second : Script more left right) :
    Script (min count more) left right := by
  rcases Nat.le_total count more with less | less
  · rwa [Nat.min_eq_left less]
  · rwa [Nat.min_eq_right less]

theorem script_zero_iff : Script 0 left right ↔ left = right := by
  constructor
  · rintro ⟨⟩
    rfl
  · rintro rfl
    exact .done left

end

/-!
The distance as a recursion on both texts.  Its last step is the first edit: the first
characters of the texts are paired, or one of them stands alone.
-/

/-- The number of edits when the first characters are edited first. -/
def steps : (left right : List Char) → Nat
  | [], right => right.length
  | left, [] => left.length
  | c :: left, d :: right =>
    min (min (steps (c :: left) right + 1) (steps left (d :: right) + 1))
      (steps left right + if c = d then 0 else 1)
termination_by left right => left.length + right.length

section

variable {c d : Char} {left right other : List Char} {count : Nat}

@[simp] theorem steps_nil_left (right : List Char) : steps [] right = right.length := by
  rw [steps]

@[simp] theorem steps_nil_right (left : List Char) : steps left [] = left.length := by
  cases left <;> simp [steps]

theorem steps_cons_cons (c d : Char) (left right : List Char) :
    steps (c :: left) (d :: right) =
      min (min (steps (c :: left) right + 1) (steps left (d :: right) + 1))
        (steps left right + if c = d then 0 else 1) := by
  rw [steps]

theorem steps_comm (left right : List Char) : steps left right = steps right left := by
  fun_induction steps left right with
  | case1 right => rw [steps_nil_right]
  | case2 left _ => rw [steps_nil_left]
  | case3 c left d right ihRight ihLeft ih =>
      rw [steps_cons_cons d c, ihRight, ihLeft, ih, min_comm (steps (d :: right) left + 1)]
      simp only [eq_comm]

theorem steps_self (text : List Char) : steps text text = 0 := by
  induction text with
  | nil => rw [steps_nil_left, List.length_nil]
  | cons c text ih => simp [steps_cons_cons, ih]

theorem steps_le_max (left right : List Char) :
    steps left right ≤ max left.length right.length := by
  fun_induction steps left right with
  | case1 right => exact le_max_right _ _
  | case2 left _ => exact le_max_left _ _
  | case3 c left d right _ _ ih =>
      simp only [List.length_cons]
      split <;> omega

/-- Deleting a character in front takes one step more at most. -/
theorem steps_cons_left_le (c : Char) (left right : List Char) :
    steps (c :: left) right ≤ steps left right + 1 := by
  cases right with
  | nil => simp
  | cons d right =>
      rw [steps_cons_cons]
      omega

theorem steps_cons_right_le (left right : List Char) (d : Char) :
    steps left (d :: right) ≤ steps left right + 1 := by
  rw [steps_comm, steps_comm left]
  exact steps_cons_left_le d right left

theorem steps_le_cons_left (c : Char) (left right : List Char) :
    steps left right ≤ steps (c :: left) right + 1 := by
  induction right with
  | nil => simp; omega
  | cons d right ih =>
      have further := steps_cons_right_le left right d
      rw [steps_cons_cons]
      omega

theorem steps_substitution_le (c d : Char) (left right : List Char) :
    steps (c :: left) right ≤ steps (d :: left) right + 1 := by
  induction right with
  | nil => simp
  | cons e right ih =>
      rw [steps_cons_cons c, steps_cons_cons d]
      split <;> split <;> omega

/-- What holds of the rests of two texts holds of the texts with one more character in front
of both. -/
theorem steps_cons_congr (closer : ∀ right, steps left right ≤ steps other right + 1)
    (right : List Char) : steps (c :: left) right ≤ steps (c :: other) right + 1 := by
  induction right with
  | nil =>
      have := closer []
      simp only [steps_nil_right, List.length_cons] at this ⊢
      omega
  | cons d right ih =>
      have paired := closer right
      have alone := closer (d :: right)
      rw [steps_cons_cons, steps_cons_cons]
      omega

/-- One edit changes the distance to any text by one at most. -/
theorem Edit.steps_le (edit : Edit left other) (right : List Char) :
    steps left right ≤ steps other right + 1 := by
  have underLead : ∀ lead {rest more : List Char},
      (∀ right, steps rest right ≤ steps more right + 1) →
      ∀ right, steps (lead ++ rest) right ≤ steps (lead ++ more) right + 1 := by
    intro lead rest more closer
    induction lead with
    | nil => exact closer
    | cons c lead ih => exact steps_cons_congr ih
  cases edit with
  | insertion lead rest c => exact underLead lead (steps_le_cons_left c rest) right
  | deletion lead rest c => exact underLead lead (steps_cons_left_le c rest) right
  | substitution lead rest c d => exact underLead lead (steps_substitution_le c d rest) right

/-- No way from one text to the other is shorter. -/
theorem Script.steps_le (script : Script count left right) : steps left right ≤ count := by
  induction script with
  | done text => rw [steps_self]
  | step edit _ ih => exact (edit.steps_le _).trans (Nat.succ_le_succ ih)

theorem script_deletions (text : List Char) : Script text.length text [] := by
  induction text with
  | nil => exact .done []
  | cons c text ih => exact .step (.deletion [] text c) ih

/-- So many edits lead from one text to the other. -/
theorem script_steps (left right : List Char) : Script (steps left right) left right := by
  fun_induction steps left right with
  | case1 right => exact (script_deletions right).symm
  | case2 left _ => exact script_deletions left
  | case3 c left d right inserting deleting pairing =>
      have inserted : Script (steps (c :: left) right + 1) (c :: left) (d :: right) :=
        inserting.trans (.single (.insertion [] right d))
      have deleted : Script (steps left (d :: right) + 1) (c :: left) (d :: right) :=
        .step (.deletion [] left c) deleting
      have paired : Script (steps left right + if c = d then 0 else 1) (c :: left) (d :: right) := by
        have prepended : Script (steps left right) (d :: left) (d :: right) :=
          pairing.map fun edit => edit.append_left [d]
        split
        · subst d
          exact prepended
        · exact .step (.substitution [] left c d) prepended
      exact (inserted.min deleted).min paired

/-- Texts that are read backwards are as far apart. -/
theorem steps_reverse (left right : List Char) :
    steps left.reverse right.reverse = steps left right := by
  have atMost : ∀ left right : List Char, steps left.reverse right.reverse ≤ steps left right :=
    fun left right => ((script_steps left right).map Edit.reverse).steps_le
  refine le_antisymm (atMost left right) ?_
  simpa using atMost left.reverse right.reverse

end

/-!
The rows.  The row of a text holds its distance to every start of the other text; both are
read backwards here, so that the last step of the rows is the first one of the recursion.
-/

/-- The entries of a row behind the start `passed`: `done` is the text of the row, `rest` is
what the other text has behind `passed`. -/
def rowBehind (done passed : List Char) : (rest : List Char) → List Nat
  | [] => []
  | d :: rest => steps done (d :: passed) :: rowBehind done (d :: passed) rest

section

variable (c : Char) (done passed rest text : List Char)

theorem rowRest_rowBehind :
    rowRest c (steps (c :: done) passed) (steps done passed) (rowBehind done passed rest) rest =
      rowBehind (c :: done) passed rest := by
  induction rest generalizing passed with
  | nil => rfl
  | cons d rest ih =>
      rw [rowBehind, rowRest, ← steps_cons_cons, ih, rowBehind]

theorem nextRow_row :
    nextRow text (steps done [] :: rowBehind done [] text) c =
      steps (c :: done) [] :: rowBehind (c :: done) [] text := by
  have first : steps done [] + 1 = steps (c :: done) [] := by simp
  rw [nextRow, first, rowRest_rowBehind]

theorem foldl_nextRow (left : List Char) :
    left.foldl (nextRow text) (steps done [] :: rowBehind done [] text) =
      steps (left.reverse ++ done) [] :: rowBehind (left.reverse ++ done) [] text := by
  induction left generalizing done with
  | nil => rfl
  | cons c left ih => rw [List.foldl_cons, nextRow_row, ih, List.reverse_cons, List.append_assoc,
      List.singleton_append]

theorem rowBehind_nil :
    rowBehind [] passed rest = List.range' (passed.length + 1) rest.length := by
  induction rest generalizing passed with
  | nil => rfl
  | cons d rest ih =>
      rw [rowBehind, ih, steps_nil_left, List.length_cons, List.length_cons, List.range'_succ]

theorem firstRow_eq : firstRow text = steps [] [] :: rowBehind [] [] text := by
  rw [firstRow, List.range_eq_range', List.range'_succ, rowBehind_nil, steps_nil_left]
  rfl

theorem getLast?_row :
    (steps done passed :: rowBehind done passed rest).getLast? =
      some (steps done (rest.reverse ++ passed)) := by
  induction rest generalizing passed with
  | nil => rfl
  | cons d rest ih =>
      rw [rowBehind, List.getLast?_cons_cons, ih, List.reverse_cons, List.append_assoc,
        List.singleton_append]

end

theorem rowDistance_eq_steps (left right : List Char) :
    rowDistance left right = steps left right := by
  rw [rowDistance, firstRow_eq, foldl_nextRow, getLast?_row, Option.getD_some, List.append_nil,
    List.append_nil, steps_reverse]

theorem editDistance_eq_steps (left right : List Char) :
    editDistance left right = steps left right := by
  rw [editDistance, rowDistance_eq_steps, rowDistance_eq_steps, steps_comm right, ite_self]

theorem editDistance_comm (left right : List Char) :
    editDistance left right = editDistance right left := by
  rw [editDistance_eq_steps, editDistance_eq_steps, steps_comm]

theorem editDistance_self (text : List Char) : editDistance text text = 0 := by
  rw [editDistance_eq_steps, steps_self]

theorem editDistance_le_max (left right : List Char) :
    editDistance left right ≤ max left.length right.length := by
  rw [editDistance_eq_steps]
  exact steps_le_max left right

/-- The edit distance of two texts is the least number of insertions, deletions and
substitutions of a character that turn the one into the other.  So it is the same in both
directions, zero for equal texts only, never shorter over a text in between, and at most the
length of the longer text. -/
theorem editDistance_isLeast (left right : List Char) :
    IsLeast {count | Script count left right} (editDistance left right) ∧
      editDistance left right = editDistance right left ∧
      (editDistance left right = 0 ↔ left = right) ∧
      (∀ between,
        editDistance left right ≤ editDistance left between + editDistance between right) ∧
      editDistance left right ≤ max left.length right.length := by
  refine ⟨⟨?_, ?_⟩, editDistance_comm left right, ⟨fun isZero => ?_, ?_⟩, fun between => ?_,
    editDistance_le_max left right⟩
  · rw [editDistance_eq_steps]
    exact script_steps left right
  · intro count script
    rw [editDistance_eq_steps]
    exact Script.steps_le script
  · have script := script_steps left right
    rw [editDistance_eq_steps] at isZero
    rw [isZero] at script
    exact script_zero_iff.mp script
  · rintro rfl
    exact editDistance_self left
  · have around := (script_steps left between).trans (script_steps between right)
    simp only [editDistance_eq_steps]
    exact around.steps_le

example : editDistance "kitten".toList "sitting".toList = 3 := by decide

end ComponentAtlas.Similarity
