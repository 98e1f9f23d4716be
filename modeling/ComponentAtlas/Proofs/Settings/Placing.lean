/-
Module: ComponentAtlas.Proofs.Settings.Placing
Purpose: Frameworks placed upon others of their names: which are placed first does not matter.
Main exports:
  IsPlain, mergeEntries_mergeEntries, IsKeyed, HasKey, placeFramework_placeFramework,
  placeFramework_comm, placeAll, placeAll_placeAll, overlayFrameworks_keyed
-/
import ComponentAtlas.Proofs.Data.Overwriting
import ComponentAtlas.Proofs.Settings.Merging

namespace ComponentAtlas.Settings

/-!
A framework without mappings among its fields is laid over another one field by field, so it
does not matter which of three are put together first.
-/

/-- The entries have no mappings among their values. -/
def IsFlat (entries : Entries) : Prop := ∀ entry ∈ entries, ∀ inner, entry.2 ≠ .map inner

variable {lower middle upper : Entries}

theorem IsFlat.putAll (isLower : IsFlat lower) (isUpper : IsFlat upper) :
    IsFlat (lower.putAll upper) := by
  intro entry member
  rcases Entries.mem_putAll member with below | ⟨given, isGiven, sameValue⟩
  · exact isLower entry below
  · rw [sameValue]
    exact isUpper given isGiven

theorem deepMerge_of_ne_map {value : Data} (notMap : ∀ inner, value ≠ .map inner) (below : Data) :
    deepMerge below value = value := by
  cases value with
  | map inner => exact absurd rfl (notMap inner)
  | _ => simp only [deepMerge]

theorem mergeEntries_of_isFlat (flat : IsFlat upper) (lower : Entries) :
    mergeEntries lower upper = lower.putAll upper := by
  induction upper generalizing lower with
  | nil => rfl
  | cons entry rest ih =>
      have notMap := flat entry List.mem_cons_self
      have areOthers : IsFlat rest := fun other later => flat other (List.mem_cons_of_mem _ later)
      rw [mergeEntries, ih areOthers, Entries.putAll_cons]
      cases Entries.find? lower entry.1 with
      | none => rfl
      | some below =>
          dsimp only
          rw [deepMerge_of_ne_map notMap]

/-- A framework whose fields are distinct and no mappings, with a text as its name or without
a name. -/
structure IsPlain (framework : Entries) : Prop where
  distinct : framework.keys.Nodup
  flat : IsFlat framework
  named : ∃ name?, HasName framework name?

theorem mergeEntries_mergeEntries (isMiddle : IsPlain middle) (isUpper : IsPlain upper)
    (lower : Entries) :
    mergeEntries lower (mergeEntries middle upper) = mergeEntries (mergeEntries lower middle) upper := by
  rw [mergeEntries_of_isFlat isUpper.flat, mergeEntries_of_isFlat isMiddle.flat,
    mergeEntries_of_isFlat isUpper.flat, mergeEntries_of_isFlat (isMiddle.flat.putAll isUpper.flat),
    Entries.putAll_putAll isMiddle.distinct]

/-- A plain framework under the key of its name. -/
structure IsKeyed (entry : Key × Entries) : Prop where
  plain : IsPlain entry.2
  isKey : nameKey entry.2 = .ok entry.1

theorem IsPlain.exists_isKeyed {framework : Entries} (plain : IsPlain framework) :
    ∃ key, IsKeyed (key, framework) := by
  obtain ⟨name?, named⟩ := plain.named
  exact ⟨keyOf name?, plain, named.nameKey⟩

variable {first second : Key × Entries}

theorem IsKeyed.exists_name (keyed : IsKeyed first) :
    ∃ name?, first.1 = keyOf name? ∧ HasName first.2 name? := by
  obtain ⟨name?, named⟩ := keyed.plain.named
  exact ⟨name?, Except.ok.inj (keyed.isKey.symm.trans named.nameKey), named⟩

theorem IsKeyed.merge (isFirst : IsKeyed first) (isSecond : IsKeyed second)
    (same : first.1.canonical = second.1.canonical) :
    IsKeyed (first.1, mergeEntries first.2 second.2) := by
  obtain ⟨firstName?, firstKey, firstNamed⟩ := isFirst.exists_name
  obtain ⟨secondName?, secondKey, secondNamed⟩ := isSecond.exists_name
  obtain rfl : firstName? = secondName? := by
    rw [firstKey, secondKey, ← Entries.same_iff] at same
    exact (same_keyOf _ _).mp same
  have named := firstNamed.mergeEntries secondNamed isSecond.plain.distinct
  refine ⟨⟨?_, ?_, firstName?, named⟩, firstKey ▸ named.nameKey⟩
  · rw [mergeEntries_of_isFlat isSecond.plain.flat]
    exact Entries.nodup_keys_putAll isFirst.plain.distinct _
  · rw [mergeEntries_of_isFlat isSecond.plain.flat]
    exact isFirst.plain.flat.putAll isSecond.plain.flat

/-!
A framework is placed upon the last one of its name.  Two are placed in either order when
they have different names and one of the names is there already.
-/

/-- One of the frameworks stands under a key. -/
def HasKey (frameworks : List (Key × Entries)) (key : Key) : Prop :=
  ∃ entry ∈ frameworks, entry.1.canonical = key.canonical

variable {frameworks rest below above : List (Key × Entries)} {entry : Key × Entries} {key other : Key}

theorem hasKey_cons :
    HasKey (entry :: rest) key ↔ entry.1.canonical = key.canonical ∨ HasKey rest key := by
  simp [HasKey]

theorem placeFramework_of_last (isKey : entry.1.canonical = key.canonical)
    (isLast : ¬HasKey rest key) (upper : Entries) :
    placeFramework (entry :: rest) key upper = (entry.1, mergeEntries entry.2 upper) :: rest := by
  rcases changeLast?_cases (fun entry : Key × Entries => entry.1.same key)
      (fun entry => (entry.1, mergeEntries entry.2 upper)) rest with
    ⟨isNone, -⟩ | ⟨before, item, after, rfl, isSame, -⟩
  · simp [placeFramework, changeLast?, isNone, Entries.same_iff.mpr isKey]
  · exact absurd ⟨item, by simp, Entries.same_iff.mp isSame⟩ isLast

theorem placeFramework_of_not_last
    (notLast : ¬(entry.1.canonical = key.canonical ∧ ¬HasKey rest key)) (upper : Entries) :
    placeFramework (entry :: rest) key upper = entry :: placeFramework rest key upper := by
  rw [placeFramework, placeFramework, changeLast?]
  rcases changeLast?_cases (fun entry : Key × Entries => entry.1.same key)
      (fun entry => (entry.1, mergeEntries entry.2 upper)) rest with
    ⟨isNone, none⟩ | ⟨before, item, after, -, -, isSome⟩
  · have noKey : ¬HasKey rest key := fun ⟨later, member, same⟩ =>
      none later member (Entries.same_iff.mpr same)
    have notKey : ¬entry.1.same key := fun same => notLast ⟨Entries.same_iff.mp same, noKey⟩
    simp [isNone, notKey]
  · simp [isSome]

theorem hasKey_placeFramework (frameworks : List (Key × Entries)) (key : Key) (upper : Entries)
    (other : Key) :
    HasKey (placeFramework frameworks key upper) other ↔
      HasKey frameworks other ∨ key.canonical = other.canonical := by
  induction frameworks with
  | nil => simp [placeFramework, changeLast?, HasKey]
  | cons entry rest ih =>
      by_cases isLast : entry.1.canonical = key.canonical ∧ ¬HasKey rest key
      · rw [placeFramework_of_last isLast.1 isLast.2, hasKey_cons, hasKey_cons, isLast.1]
        tauto
      · rw [placeFramework_of_not_last isLast, hasKey_cons, hasKey_cons, ih, or_assoc]

/-- What is placed upon a framework is placed upon what that one was placed upon. -/
theorem placeFramework_placeFramework (isFirst : IsPlain middle) (isSecond : IsPlain upper)
    (frameworks : List (Key × Entries)) (same : key.canonical = other.canonical) :
    placeFramework (placeFramework frameworks key middle) other upper =
      placeFramework frameworks key (mergeEntries middle upper) := by
  induction frameworks with
  | nil =>
      have noKey : ¬HasKey [] other := by simp [HasKey]
      exact placeFramework_of_last same noKey upper
  | cons entry rest ih =>
      by_cases isLast : entry.1.canonical = key.canonical ∧ ¬HasKey rest key
      · have noOther : ¬HasKey rest other := by
          unfold HasKey
          rw [← same]
          exact isLast.2
        have isOther : (entry.1, mergeEntries entry.2 middle).1.canonical = other.canonical :=
          isLast.1.trans same
        rw [placeFramework_of_last isLast.1 isLast.2, placeFramework_of_last isLast.1 isLast.2,
          placeFramework_of_last isOther noOther, mergeEntries_mergeEntries isFirst isSecond]
      · have hasOther := (hasKey_placeFramework rest key middle other).mpr (.inr same)
        rw [placeFramework_of_not_last isLast, placeFramework_of_not_last isLast,
          placeFramework_of_not_last fun ⟨_, noOther⟩ => noOther hasOther, ih]

theorem placeFramework_comm (ne : key.canonical ≠ other.canonical) (hasKey : HasKey frameworks key)
    (middle upper : Entries) :
    placeFramework (placeFramework frameworks key middle) other upper =
      placeFramework (placeFramework frameworks other upper) key middle := by
  induction frameworks with
  | nil =>
      obtain ⟨entry, member, -⟩ := hasKey
      cases member
  | cons entry rest ih =>
      have restKey := hasKey_placeFramework rest other upper key
      have restOther := hasKey_placeFramework rest key middle other
      rw [or_iff_left ne.symm] at restKey
      rw [or_iff_left ne] at restOther
      by_cases later : HasKey rest key
      · -- Both frameworks find their places behind the first one, or the second one upon it.
        have notLast : ∀ first : Key × Entries,
            ¬(first.1.canonical = key.canonical ∧ ¬HasKey rest key) := fun _ isLast =>
          isLast.2 later
        rw [placeFramework_of_not_last (notLast entry)]
        by_cases isLast : entry.1.canonical = other.canonical ∧ ¬HasKey rest other
        · rw [placeFramework_of_last isLast.1 isLast.2, placeFramework_of_not_last (notLast _),
            placeFramework_of_last isLast.1 (restOther.not.mpr isLast.2)]
        · rw [placeFramework_of_not_last isLast,
            placeFramework_of_not_last fun isNow => isLast ⟨isNow.1, restOther.not.mp isNow.2⟩,
            placeFramework_of_not_last fun isKey => isKey.2 (restKey.mpr later), ih later]
      · have isKey : entry.1.canonical = key.canonical := (hasKey_cons.mp hasKey).resolve_right later
        have notOther : ∀ first : Key × Entries, first.1 = entry.1 →
            ¬(first.1.canonical = other.canonical ∧ ¬HasKey rest other) := by
          rintro first same ⟨isOther, -⟩
          rw [same] at isOther
          exact ne (isKey.symm.trans isOther)
        rw [placeFramework_of_last isKey later,
          placeFramework_of_not_last (notOther (entry.1, mergeEntries entry.2 middle) rfl),
          placeFramework_of_not_last (notOther entry rfl),
          placeFramework_of_last isKey (restKey.not.mpr later)]

theorem isKeyed_placeFramework (each : ∀ entry ∈ frameworks, IsKeyed entry) (isSecond : IsKeyed second) :
    ∀ entry ∈ placeFramework frameworks second.1 second.2, IsKeyed entry := by
  induction frameworks with
  | nil => simpa [placeFramework, changeLast?] using isSecond
  | cons first rest ih =>
      have isFirst := each first List.mem_cons_self
      have others : ∀ entry ∈ rest, IsKeyed entry := fun entry later =>
        each entry (List.mem_cons_of_mem _ later)
      by_cases isLast : first.1.canonical = second.1.canonical ∧ ¬HasKey rest second.1
      · rw [placeFramework_of_last isLast.1 isLast.2, List.forall_mem_cons]
        exact ⟨isFirst.merge isSecond isLast.1, others⟩
      · rw [placeFramework_of_not_last isLast, List.forall_mem_cons]
        exact ⟨isFirst, ih others⟩

/-!
All frameworks of some settings are placed one after the other.
-/

/-- Frameworks under their keys, placed upon others. -/
def placeAll (below above : List (Key × Entries)) : List (Key × Entries) :=
  above.foldl (fun placed entry => placeFramework placed entry.1 entry.2) below

theorem placeAll_cons (below : List (Key × Entries)) (entry : Key × Entries)
    (rest : List (Key × Entries)) :
    placeAll below (entry :: rest) = placeAll (placeFramework below entry.1 entry.2) rest := rfl

theorem isKeyed_placeAll (areBelow : ∀ entry ∈ below, IsKeyed entry)
    (areAbove : ∀ entry ∈ above, IsKeyed entry) : ∀ entry ∈ placeAll below above, IsKeyed entry := by
  induction above generalizing below with
  | nil => exact areBelow
  | cons entry rest ih =>
      rw [List.forall_mem_cons] at areAbove
      exact ih (isKeyed_placeFramework areBelow areAbove.1) areAbove.2

theorem placeAll_placeFramework_comm (hasKey : HasKey below key) (noKey : ¬HasKey above key)
    (upper : Entries) :
    placeAll (placeFramework below key upper) above =
      placeFramework (placeAll below above) key upper := by
  induction above generalizing below with
  | nil => rfl
  | cons entry rest ih =>
      rw [hasKey_cons, not_or] at noKey
      have stillKey := (hasKey_placeFramework below entry.1 entry.2 key).mpr (.inl hasKey)
      rw [placeAll_cons, placeAll_cons, placeFramework_comm (Ne.symm noKey.1) hasKey, ih stillKey noKey.2]

theorem placeAll_placeFramework (areAbove : ∀ entry ∈ above, IsKeyed entry) (isUpper : IsPlain upper)
    (below : List (Key × Entries)) (key : Key) :
    placeAll below (placeFramework above key upper) =
      placeFramework (placeAll below above) key upper := by
  induction above generalizing below with
  | nil => rfl
  | cons entry rest ih =>
      rw [List.forall_mem_cons] at areAbove
      by_cases isLast : entry.1.canonical = key.canonical ∧ ¬HasKey rest key
      · have hasKey := (hasKey_placeFramework below entry.1 entry.2 key).mpr (.inr isLast.1)
        rw [placeFramework_of_last isLast.1 isLast.2, placeAll_cons, placeAll_cons,
          ← placeFramework_placeFramework areAbove.1.plain isUpper below isLast.1,
          placeAll_placeFramework_comm hasKey isLast.2]
      · rw [placeFramework_of_not_last isLast, placeAll_cons, placeAll_cons, ih areAbove.2]

/-- Frameworks placed upon others that were placed upon others: it does not matter which are
put together first. -/
theorem placeAll_placeAll {middle above : List (Key × Entries)}
    (areMiddle : ∀ entry ∈ middle, IsKeyed entry) (areAbove : ∀ entry ∈ above, IsKeyed entry)
    (below : List (Key × Entries)) :
    placeAll below (placeAll middle above) = placeAll (placeAll below middle) above := by
  induction above generalizing middle with
  | nil => rfl
  | cons entry rest ih =>
      rw [List.forall_mem_cons] at areAbove
      rw [placeAll_cons, ih (isKeyed_placeFramework areMiddle areAbove.1) areAbove.2,
        placeAll_placeFramework areMiddle areAbove.1.plain, placeAll_cons]

theorem foldlM_placeFramework_keyed (areAbove : ∀ entry ∈ above, IsKeyed entry)
    (below : List (Key × Entries)) :
    (above.map (·.2)).foldlM (fun frameworks entries =>
        return placeFramework frameworks (← nameKey entries) entries) below =
      (.ok (placeAll below above) : Except Fault (List (Key × Entries))) := by
  induction above generalizing below with
  | nil => rfl
  | cons entry rest ih =>
      rw [List.forall_mem_cons] at areAbove
      rw [List.map_cons, List.foldlM_cons, areAbove.1.isKey]
      exact ih areAbove.2 _

theorem overlayFrameworks_keyed (areBelow : ∀ entry ∈ below, IsKeyed entry)
    (areAbove : ∀ entry ∈ above, IsKeyed entry) :
    overlayFrameworks (below.map (·.2)) (above.map (·.2)) = .ok ((placeAll below above).map (·.2)) :=
  bind_eq_ok.mpr ⟨below, mapM_nameKey fun entry member => (areBelow entry member).exists_name,
    bind_eq_ok.mpr ⟨_, foldlM_placeFramework_keyed areAbove below, rfl⟩⟩

end ComponentAtlas.Settings
