/-
Module: ComponentAtlas.Proofs.Data.Overwriting
Purpose: Entries written over others: what is found afterwards, and that it does not matter
  which are written over which first.
Main exports:
  SameAs, find?_congr, find?_putAll, find?_filter_not_same, put_put, put_comm, putAll_put,
  putAll_putAll
-/
import ComponentAtlas.Proofs.Data.Mapping

namespace ComponentAtlas.Entries

variable {entries more upper : Entries} {key other : Key} {first second value : Data}

/-- The same is found in two mappings, whatever order they were written in. -/
def SameAs (left right : Entries) : Prop := ∀ key, left.find? key = right.find? key

/-- Keys that count as equal find the same. -/
theorem find?_congr (same : key.canonical = other.canonical) (entries : Entries) :
    entries.find? key = entries.find? other := by
  simp only [find?, Key.same, same]

theorem putAll_cons (entries : Entries) (entry : Key × Data) (more : Entries) :
    entries.putAll (entry :: more) = (entries.put entry.1 entry.2).putAll more := rfl

/-- What was written last is found, and else what was there. -/
theorem find?_putAll (distinct : more.keys.Nodup) (entries : Entries) (key : Key) :
    (entries.putAll more).find? key = (more.find? key).or (entries.find? key) := by
  induction more generalizing entries with
  | nil => rfl
  | cons entry more ih =>
      rw [keys_cons, List.nodup_cons] at distinct
      rw [putAll_cons, ih distinct.2, find?_cons]
      split
      · rename_i isKey
        have same := same_iff.mp isKey
        rw [find?_eq_none_iff.mpr (same ▸ distinct.1), find?_put_self entries same]
        rfl
      · rename_i notKey
        rw [find?_put_of_ne fun same => notKey (same_iff.mpr same)]

/-- Without one key, everything else is still found. -/
theorem find?_filter_not_same (entries : Entries) (removed key : Key) :
    find? (entries.filter fun entry => !entry.1.same removed) key =
      if key.same removed then none else entries.find? key := by
  induction entries with
  | nil => simp [find?]
  | cons entry rest ih =>
      by_cases isRemoved : entry.1.same removed
      · rw [List.filter_cons_of_neg (by simp [isRemoved]), ih, find?_cons]
        by_cases isKey : entry.1.same key
        · have same : key.same removed :=
            same_iff.mpr ((same_iff.mp isKey).symm.trans (same_iff.mp isRemoved))
          rw [if_pos same, if_pos same]
        · rw [if_neg isKey]
      · rw [List.filter_cons_of_pos (by simp [isRemoved]), find?_cons, find?_cons, ih]
        by_cases isKey : entry.1.same key
        · have ne : ¬key.same removed := fun same =>
            isRemoved (same_iff.mpr ((same_iff.mp isKey).trans (same_iff.mp same)))
          rw [if_pos isKey, if_pos isKey, if_neg ne]
        · rw [if_neg isKey, if_neg isKey]

theorem nodup_keys_filter (distinct : entries.keys.Nodup) (kept : Key × Data → Bool) :
    (keys (entries.filter kept)).Nodup :=
  (List.filter_sublist.map _).nodup distinct

theorem mem_keys_put (member : key.canonical ∈ entries.keys) (other : Key) (value : Data) :
    key.canonical ∈ (entries.put other value).keys := by
  rw [keys_put]
  split
  · exact member
  · exact List.mem_append_left _ member

theorem mem_keys_put_self (entries : Entries) (key : Key) (value : Data) :
    key.canonical ∈ (entries.put key value).keys := by
  rw [keys_put]
  split
  · assumption
  · exact List.mem_append_right _ (List.mem_singleton_self _)

/-- What is written under a key takes the place of what was written there before. -/
theorem put_put (same : key.canonical = other.canonical) (entries : Entries) (first second : Data) :
    (entries.put key first).put other second = entries.put key second := by
  induction entries with
  | nil => simp [put, same_iff.mpr same]
  | cons entry rest ih =>
      by_cases isKey : entry.1.same key
      · have isOther : entry.1.same other := same_iff.mpr ((same_iff.mp isKey).trans same)
        simp [put, isKey, isOther]
      · have notOther : ¬entry.1.same other := fun isOther =>
          isKey (same_iff.mpr ((same_iff.mp isOther).trans same.symm))
        simp [put, isKey, notOther, ih]

/-- It does not matter which of two keys is written first when one of them is there. -/
theorem put_comm (ne : key.canonical ≠ other.canonical) (member : key.canonical ∈ entries.keys)
    (first second : Data) :
    (entries.put key first).put other second = (entries.put other second).put key first := by
  induction entries with
  | nil => cases member
  | cons entry rest ih =>
      by_cases isKey : entry.1.same key
      · have notOther : ¬entry.1.same other := fun isOther =>
          ne ((same_iff.mp isKey).symm.trans (same_iff.mp isOther))
        simp [put, isKey, notOther]
      · by_cases isOther : entry.1.same other
        · simp [put, isKey, isOther]
        · have notFirst : key.canonical ≠ entry.1.canonical := fun same =>
            isKey (same_iff.mpr same.symm)
          rw [keys_cons, List.mem_cons, or_iff_right notFirst] at member
          simp [put, isKey, isOther, ih member]

theorem putAll_put_comm (member : key.canonical ∈ entries.keys) (new : key.canonical ∉ more.keys)
    (value : Data) : (entries.putAll more).put key value = (entries.put key value).putAll more := by
  induction more generalizing entries with
  | nil => rfl
  | cons entry more ih =>
      rw [keys_cons, List.mem_cons, not_or] at new
      rw [putAll_cons, ih (mem_keys_put member _ _) new.2, putAll_cons, put_comm new.1 member]

/-- An entry that is written into what is written over others can be written after it. -/
theorem putAll_put (distinct : more.keys.Nodup) (entries : Entries) (key : Key) (value : Data) :
    entries.putAll (more.put key value) = (entries.putAll more).put key value := by
  induction more generalizing entries with
  | nil => rfl
  | cons entry more ih =>
      rw [keys_cons, List.nodup_cons] at distinct
      by_cases isKey : entry.1.same key
      · have same := same_iff.mp isKey
        have isPlaced : put (entry :: more) key value = (entry.1, value) :: more := by
          simp [put, isKey]
        have member : key.canonical ∈ (entries.put entry.1 entry.2).keys :=
          same ▸ mem_keys_put_self entries entry.1 entry.2
        rw [isPlaced, putAll_cons, putAll_cons, putAll_put_comm member (same ▸ distinct.1),
          put_put same]
      · have isPlaced : put (entry :: more) key value = entry :: put more key value := by
          simp [put, isKey]
        rw [isPlaced, putAll_cons, putAll_cons, ih distinct.2]

/-- Entries written over others that were written over others: it does not matter which are
put together first. -/
theorem putAll_putAll (distinct : more.keys.Nodup) (entries upper : Entries) :
    entries.putAll (more.putAll upper) = (entries.putAll more).putAll upper := by
  induction upper generalizing more with
  | nil => rfl
  | cons entry upper ih =>
      rw [putAll_cons, ih (nodup_keys_put distinct _ _), putAll_put distinct, putAll_cons]

end ComponentAtlas.Entries
