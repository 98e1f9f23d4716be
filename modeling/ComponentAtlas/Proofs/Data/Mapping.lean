/-
Module: ComponentAtlas.Proofs.Data.Mapping
Purpose: Mappings whose keys are distinct, and what is found in them.
Main exports:
  Entries.keys, find?_put_self, keys_put, find?_putAll, Data.IsProper,
  isProper_ofPairs
-/
import Mathlib.Data.List.Nodup
import ComponentAtlas.Proofs.Settings.Opening

namespace ComponentAtlas

namespace Entries

variable {entries more : Entries} {key other : Key} {value : Data}

/-- The keys of a mapping, in the form in which equal keys coincide. -/
def keys (entries : Entries) : List Key := entries.map (·.1.canonical)

theorem keys_cons (entry : Key × Data) (entries : Entries) :
    keys (entry :: entries) = entry.1.canonical :: keys entries := rfl

theorem same_iff : key.same other ↔ key.canonical = other.canonical := by
  simp [Key.same]

theorem find?_cons (entry : Key × Data) (entries : Entries) (key : Key) :
    find? (entry :: entries) key = if entry.1.same key then some entry.2 else entries.find? key := by
  unfold find?
  by_cases isKey : entry.1.same key <;> simp [isKey]

theorem find?_eq_none_iff : entries.find? key = none ↔ key.canonical ∉ entries.keys := by
  induction entries with
  | nil => simp [find?, keys]
  | cons entry rest ih =>
      rw [find?_cons]
      split
      · rename_i isKey
        simp [keys, same_iff.mp isKey]
      · rename_i notKey
        have ne : key.canonical ≠ entry.1.canonical := fun same => notKey (same_iff.mpr same.symm)
        simpa [keys, ne] using ih

theorem mem_of_find? (found : entries.find? key = some value) :
    ∃ entry ∈ entries, entry.1.canonical = key.canonical ∧ entry.2 = value := by
  obtain ⟨entry, isFound, rfl⟩ := Option.map_eq_some_iff.mp found
  have isKey := List.find?_some isFound
  exact ⟨entry, List.mem_of_find?_eq_some isFound, same_iff.mp isKey, rfl⟩

/-- What was written under a key is found there. -/
theorem find?_put_self (entries : Entries) (same : key.canonical = other.canonical) (value : Data) :
    (entries.put key value).find? other = some value := by
  induction entries with
  | nil => rw [put, find?_cons, if_pos (same_iff.mpr same)]
  | cons entry rest ih =>
      unfold put
      split
      · rename_i isKey
        rw [find?_cons, if_pos (same_iff.mpr ((same_iff.mp isKey).trans same))]
      · rename_i notKey
        have ne : ¬entry.1.same other := fun isOther =>
          notKey (same_iff.mpr ((same_iff.mp isOther).trans same.symm))
        rw [find?_cons, if_neg ne, ih]

theorem keys_put (entries : Entries) (key : Key) (value : Data) :
    (entries.put key value).keys =
      if key.canonical ∈ entries.keys then entries.keys else entries.keys ++ [key.canonical] := by
  induction entries with
  | nil => rfl
  | cons entry rest ih =>
      unfold put
      split
      · rename_i isKey
        simp [keys, same_iff.mp isKey]
      · rename_i notKey
        have ne : key.canonical ≠ entry.1.canonical := fun same => notKey (same_iff.mpr same.symm)
        rw [keys_cons, ih, keys_cons]
        by_cases member : key.canonical ∈ keys rest
        · rw [if_pos member, if_pos (List.mem_cons_of_mem _ member)]
        · rw [if_neg member, if_neg (by simp [ne, member]), List.cons_append]

theorem nodup_keys_put (distinct : entries.keys.Nodup) (key : Key) (value : Data) :
    (entries.put key value).keys.Nodup := by
  rw [keys_put]
  split
  · exact distinct
  · rename_i new
    refine List.nodup_append.mpr ⟨distinct, List.nodup_singleton _, ?_⟩
    rintro old member _ isNew rfl
    exact new (List.mem_singleton.mp isNew ▸ member)

theorem nodup_keys_putAll (distinct : entries.keys.Nodup) (more : Entries) :
    (entries.putAll more).keys.Nodup := by
  induction more generalizing entries with
  | nil => exact distinct
  | cons entry rest ih => exact ih (nodup_keys_put distinct entry.1 entry.2)

theorem mem_put {entry : Key × Data} (member : entry ∈ entries.put key value) :
    entry.2 = value ∨ entry ∈ entries := by
  induction entries with
  | nil => exact .inl (congrArg Prod.snd (List.mem_singleton.mp member))
  | cons first rest ih =>
      unfold put at member
      split at member
      · rcases List.mem_cons.mp member with rfl | later
        · exact .inl rfl
        · exact .inr (List.mem_cons_of_mem _ later)
      · rcases List.mem_cons.mp member with rfl | later
        · exact .inr List.mem_cons_self
        · exact (ih later).imp_right (List.mem_cons_of_mem _)

theorem mem_putAll {entry : Key × Data} (member : entry ∈ entries.putAll more) :
    entry ∈ entries ∨ ∃ given ∈ more, entry.2 = given.2 := by
  induction more generalizing entries with
  | nil => exact .inl member
  | cons given rest ih =>
      rcases ih member with written | ⟨later, isLater, same⟩
      · rcases mem_put written with isGiven | old
        · exact .inr ⟨given, List.mem_cons_self, isGiven⟩
        · exact .inl old
      · exact .inr ⟨later, List.mem_cons_of_mem _ isLater, same⟩

end Entries

/-- Data in which the keys of every mapping are distinct. -/
inductive Data.IsProper : Data → Prop where
  | null : IsProper .null
  | bool (value : Bool) : IsProper (.bool value)
  | int (value : Int) : IsProper (.int value)
  | float (value : Float) : IsProper (.float value)
  | text (value : String) : IsProper (.text value)
  | list {items : List Data} (each : ∀ item ∈ items, IsProper item) : IsProper (.list items)
  | map {entries : Entries} (distinct : entries.keys.Nodup)
      (each : ∀ entry ∈ entries, IsProper entry.2) : IsProper (.map entries)
  | foreign (value : Foreign) : IsProper (.foreign value)

namespace Data.IsProper

variable {entries : Entries}

theorem nodup_keys (proper : IsProper (.map entries)) : entries.keys.Nodup := by
  cases proper with
  | map distinct each => exact distinct

theorem of_find? (proper : IsProper (.map entries)) {key : Key} {value : Data}
    (found : entries.find? key = some value) : value.IsProper := by
  obtain ⟨entry, member, -, rfl⟩ := Entries.mem_of_find? found
  cases proper with
  | map distinct each => exact each entry member

theorem of_mem_list {items : List Data} (proper : IsProper (.list items)) {item : Data}
    (member : item ∈ items) : item.IsProper := by
  cases proper with
  | list each => exact each item member

/-- Writing entries one by one makes the keys distinct. -/
theorem ofPairs {pairs : Entries} (each : ∀ entry ∈ pairs, entry.2.IsProper) :
    (Data.ofPairs pairs).IsProper := by
  have none : Entries.keys [] = [] := rfl
  refine .map (Entries.nodup_keys_putAll (none ▸ List.nodup_nil) pairs) fun entry member => ?_
  rcases Entries.mem_putAll member with inEmpty | ⟨given, isGiven, same⟩
  · exact absurd inEmpty List.not_mem_nil
  · rw [same]
    exact each given isGiven

end Data.IsProper

end ComponentAtlas
