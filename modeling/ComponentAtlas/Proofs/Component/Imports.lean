/-
Module: ComponentAtlas.Proofs.Component.Imports
Purpose: A list without its repetitions holds the same elements, each of them once.
Main exports:
  mem_distinct, nodup_distinct, length_distinct_congr
-/
import Mathlib.Data.List.Induction
import Mathlib.Data.List.Nodup
import Mathlib.Data.List.Perm.Subperm
import ComponentAtlas.Component.Imports

namespace ComponentAtlas

section

variable {α : Type} {items others : List α}

/-- Lists without repetitions are as long as each other when they have the same elements. -/
theorem length_eq_of_nodup (nodup : items.Nodup) (otherNodup : others.Nodup)
    (same : ∀ element, element ∈ items ↔ element ∈ others) : items.length = others.length :=
  ((List.perm_ext_iff_of_nodup nodup otherNodup).mpr same).length_eq

variable [DecidableEq α]

theorem distinct_append_singleton (items : List α) (item : α) :
    distinct (items ++ [item]) =
      if item ∈ distinct items then distinct items else distinct items ++ [item] := by
  rw [distinct, List.foldl_append]
  rfl

theorem mem_distinct (items : List α) (element : α) :
    element ∈ distinct items ↔ element ∈ items := by
  induction items using List.reverseRecOn with
  | nil => rfl
  | append_singleton items item ih =>
      rw [distinct_append_singleton, List.mem_append, List.mem_singleton]
      split
      case isTrue known =>
        rw [ih, iff_self_or]
        rintro rfl
        exact ih.mp known
      case isFalse => rw [List.mem_append, List.mem_singleton, ih]

theorem nodup_distinct (items : List α) : (distinct items).Nodup := by
  induction items using List.reverseRecOn with
  | nil => exact .nil
  | append_singleton items item ih =>
      rw [distinct_append_singleton]
      split
      case isTrue => exact ih
      case isFalse unknown =>
        refine List.nodup_append.mpr ⟨ih, List.nodup_singleton _, ?_⟩
        rintro element known other isItem rfl
        exact unknown (List.mem_singleton.mp isItem ▸ known)

theorem length_distinct_congr (same : ∀ element, element ∈ items ↔ element ∈ others) :
    (distinct items).length = (distinct others).length := by
  refine length_eq_of_nodup (nodup_distinct _) (nodup_distinct _) fun element => ?_
  rw [mem_distinct, mem_distinct, same]

end

end ComponentAtlas
