/-
Module: ComponentAtlas.Proofs.Settings.Merging
Purpose: Frameworks keep their names, each of them once, however settings are laid over
  each other.
Main exports:
  find?_mergeEntries, AreNamed, mapM_nameKey, AreNamed.placeAll, NamesFrameworks, HasTextNames,
  NamesFrameworks.overlay
-/
import ComponentAtlas.Proofs.Data.Mapping

namespace ComponentAtlas.Settings

variable {lower upper entries : Entries} {key : Key} {value : Data}

/-- What is found in merged entries. -/
theorem find?_mergeEntries (distinct : upper.keys.Nodup) (lower : Entries) (key : Key) :
    Entries.find? (mergeEntries lower upper) key =
      match Entries.find? upper key with
      | none => Entries.find? lower key
      | some value =>
        some (match Entries.find? lower key with
          | some below => deepMerge below value
          | none => value) := by
  induction upper generalizing lower with
  | nil => rfl
  | cons entry rest ih =>
      obtain ⟨first, value⟩ := entry
      rw [Entries.keys_cons, List.nodup_cons] at distinct
      rw [mergeEntries, ih distinct.2, Entries.find?_cons]
      by_cases isKey : first.same key
      · -- The key comes only once, so nothing later is laid over its value.
        have same := Entries.same_iff.mp isKey
        have noLater : Entries.find? rest key = none :=
          Entries.find?_eq_none_iff.mpr (same ▸ distinct.1)
        have sameBelow : Entries.find? lower first = Entries.find? lower key := by
          simp only [Entries.find?, Key.same, same]
        rw [noLater, sameBelow, if_pos isKey]
        exact Entries.find?_put_self lower same _
      · have ne : first.canonical ≠ key.canonical := fun same => isKey (Entries.same_iff.mpr same)
        rw [if_neg isKey, Entries.find?_put_of_ne ne]

/-!
A framework is found by its name.  Names that are texts are equal only when they are the
same; a framework without a name is found under null.
-/

/-- The key under which a framework with a name, or without one, is found. -/
def keyOf : Option String → Key
  | none => .null
  | some name => .text name

theorem canonical_keyOf (name? : Option String) : (keyOf name?).canonical = keyOf name? := by
  cases name? <;> rfl

theorem same_keyOf (left right : Option String) : (keyOf left).same (keyOf right) ↔ left = right := by
  rw [Entries.same_iff, canonical_keyOf, canonical_keyOf]
  cases left <;> cases right <;> simp [keyOf]

/-- The written name of a framework is a text, or there is none. -/
def HasName (framework : Entries) : Option String → Prop
  | none => framework.find? (.text "name") = none ∨ framework.find? (.text "name") = some .null
  | some name => framework.find? (.text "name") = some (.text name)

variable {framework : Entries} {name? : Option String}

theorem HasName.nameKey (named : HasName framework name?) :
    nameKey framework = .ok (keyOf name?) := by
  unfold Settings.nameKey
  cases name? with
  | none => rcases named with missing | isNull <;> simp only [*, keyOf]
  | some name =>
      rw [HasName] at named
      simp only [named, keyOf]

/-- Laying a framework over one of the same name keeps the name. -/
theorem HasName.mergeEntries (lowerNamed : HasName lower name?) (upperNamed : HasName upper name?)
    (distinct : upper.keys.Nodup) : HasName (mergeEntries lower upper) name? := by
  cases name? with
  | none =>
      rw [HasName, find?_mergeEntries distinct]
      rcases upperNamed with missing | isNull
      · rw [missing]
        exact lowerNamed
      · right
        rw [isNull]
        rcases lowerNamed with missing | isNull <;> simp [*, deepMerge]
  | some name =>
      rw [HasName] at lowerNamed upperNamed ⊢
      rw [find?_mergeEntries distinct, lowerNamed, upperNamed]
      simp [deepMerge]

/-!
The frameworks of a project are kept with their keys while others are laid over them.
-/

/-- Every framework stands under the key of its name, and no two under one. -/
structure AreNamed (frameworks : List (Key × Entries)) : Prop where
  named : ∀ entry ∈ frameworks, ∃ name?, entry.1 = keyOf name? ∧ HasName entry.2 name?
  distinct : (frameworks.map (·.1)).Nodup

/-- Changing the last element that passes a test, if there is one, changes one element. -/
theorem changeLast?_cases {α : Type} (test : α → Bool) (change : α → α) (items : List α) :
    (changeLast? test change items = none ∧ ∀ item ∈ items, ¬test item) ∨
      ∃ before item after, items = before ++ item :: after ∧ test item ∧
        changeLast? test change items = some (before ++ change item :: after) := by
  induction items with
  | nil => exact .inl ⟨rfl, by simp⟩
  | cons first rest ih =>
      unfold changeLast?
      rcases ih with ⟨isNone, none⟩ | ⟨before, item, after, rfl, passes, isSome⟩
      · rw [isNone]
        by_cases passes : test first
        · exact .inr ⟨[], first, rest, rfl, passes, by simp [passes]⟩
        · exact .inl ⟨by simp [passes], by simpa [passes] using none⟩
      · rw [isSome]
        exact .inr ⟨first :: before, item, after, rfl, passes, rfl⟩

variable {frameworks : List (Key × Entries)}

/-- A framework that is placed takes the place of the one of its name, or comes last. -/
theorem AreNamed.place (areNamed : AreNamed frameworks) (named : HasName upper name?)
    (distinct : upper.keys.Nodup) :
    AreNamed (placeFramework frameworks (keyOf name?) upper) ∧
      frameworks.map (·.1) <+: (placeFramework frameworks (keyOf name?) upper).map (·.1) := by
  unfold placeFramework
  rcases changeLast?_cases (fun entry : Key × Entries => entry.1.same (keyOf name?))
      (fun entry => (entry.1, mergeEntries entry.2 upper)) frameworks with
    ⟨isNone, new⟩ | ⟨before, item, after, rfl, isSame, isSome⟩
  · rw [isNone, Option.getD_none, List.map_append]
    refine ⟨⟨?_, ?_⟩, List.prefix_append _ _⟩
    · intro entry member
      rcases List.mem_append.mp member with old | isNew
      · exact areNamed.named entry old
      · cases List.mem_singleton.mp isNew
        exact ⟨name?, rfl, named⟩
    · rw [List.map_append]
      refine List.nodup_append.mpr ⟨areNamed.distinct, List.nodup_singleton _, ?_⟩
      rintro key isOld _ isNew rfl
      obtain ⟨entry, old, rfl⟩ := List.mem_map.mp isOld
      have isKey : entry.1 = keyOf name? := List.mem_singleton.mp isNew
      refine new entry old ?_
      rw [isKey]
      exact (same_keyOf name? name?).mpr rfl
  · rw [isSome, Option.getD_some]
    have sameKeys : (before ++ (item.1, mergeEntries item.2 upper) :: after).map (·.1) =
        (before ++ item :: after).map (·.1) := by
      rw [List.map_append, List.map_append, List.map_cons, List.map_cons]
    refine ⟨⟨?_, sameKeys ▸ areNamed.distinct⟩, sameKeys ▸ List.prefix_rfl⟩
    intro entry member
    rcases List.mem_append.mp member with inBefore | notBefore
    · exact areNamed.named entry (List.mem_append_left _ inBefore)
    rcases List.mem_cons.mp notBefore with rfl | inAfter
    · -- A key that counts as the key of a name is that of no other name.
      obtain ⟨old?, isKey, itemNamed⟩ := areNamed.named item (by simp)
      rw [isKey] at isSame
      obtain rfl := (same_keyOf old? name?).mp isSame
      exact ⟨old?, isKey, itemNamed.mergeEntries named distinct⟩
    · exact areNamed.named entry (List.mem_append_right _ (List.mem_cons_of_mem _ inAfter))

/-- The keys of named frameworks are found again. -/
theorem mapM_nameKey
    (named : ∀ entry ∈ frameworks, ∃ name?, entry.1 = keyOf name? ∧ HasName entry.2 name?) :
    (frameworks.map (·.2)).mapM (fun entries => return (← nameKey entries, entries)) =
      (.ok frameworks : Except Fault (List (Key × Entries))) := by
  induction frameworks with
  | nil => rfl
  | cons entry rest ih =>
      obtain ⟨name?, isKey, hasName⟩ := named entry List.mem_cons_self
      rw [List.map_cons, mapM_cons_eq_ok]
      refine ⟨entry, rest, ?_, ih fun other later => named other (List.mem_cons_of_mem _ later), rfl⟩
      rw [hasName.nameKey, ← isKey]
      rfl

/-- The frameworks of a project keep their keys, and those that are placed have theirs. -/
theorem AreNamed.placeAll (areNamed : AreNamed frameworks) {given : List Entries}
    (each : ∀ framework ∈ given, framework.keys.Nodup ∧ ∃ name?, HasName framework name?) :
    ∃ next, given.foldlM (fun frameworks entries =>
        return placeFramework frameworks (← nameKey entries) entries) frameworks =
          (.ok next : Except Fault (List (Key × Entries))) ∧
      AreNamed next ∧ frameworks.map (·.1) <+: next.map (·.1) := by
  induction given generalizing frameworks with
  | nil => exact ⟨frameworks, rfl, areNamed, List.prefix_rfl⟩
  | cons framework rest ih =>
      obtain ⟨distinct, name?, named⟩ := each framework List.mem_cons_self
      obtain ⟨placed, isFirst⟩ := areNamed.place named distinct
      obtain ⟨next, isNext, areNext, isLater⟩ :=
        ih placed fun other later => each other (List.mem_cons_of_mem _ later)
      refine ⟨next, ?_, areNext, isFirst.trans isLater⟩
      rw [List.foldlM_cons, named.nameKey]
      exact isNext

/-- The frameworks of a project under their keys, those of the default settings first. -/
structure NamesFrameworks (entries : Entries) (frameworks : List (Key × Entries)) : Prop where
  listed : entries.find? frameworksKey = some (.list (frameworks.map fun entry => .map entry.2))
  areNamed : AreNamed frameworks
  defaultsFirst :
    (Settings.default.frameworks.map fun framework => Key.text framework.name) <+:
      frameworks.map (·.1)

/-- The names of the frameworks that are given are texts, or there are none. -/
def HasTextNames (given : Entries) : Prop :=
  ∀ framework ∈ frameworkEntries (given.find? frameworksKey), ∃ name?, HasName framework name?

theorem frameworkEntries_list (frameworks : List (Key × Entries)) :
    frameworkEntries (some (.list (frameworks.map fun entry => .map entry.2))) =
      frameworks.map (·.2) := by
  simp only [frameworkEntries, List.filterMap_map, Function.comp_def, List.filterMap_eq_map']

theorem mem_list_of_mem_frameworkEntries {items : List Data}
    (member : framework ∈ frameworkEntries (some (.list items))) : .map framework ∈ items := by
  obtain ⟨item, isItem, isMap⟩ := List.mem_filterMap.mp member
  cases item with
  | map entries =>
      cases isMap
      exact isItem
  | _ => cases isMap

theorem namesFrameworks_default :
    ∃ frameworks, NamesFrameworks defaultEntries frameworks := by
  refine ⟨[(.text "react-native", _), (.text "tailwind", _)], ⟨rfl, ⟨?_, by decide⟩, by decide⟩⟩
  intro entry member
  rcases List.mem_cons.mp member with rfl | later
  · exact ⟨some "react-native", rfl, rfl⟩
  · cases List.mem_singleton.mp later
    exact ⟨some "tailwind", rfl, rfl⟩

/-- Frameworks keep their names when others are laid over them. -/
theorem NamesFrameworks.overlay (names : NamesFrameworks lower frameworks)
    (proper : (Data.map upper).IsProper) (textNames : HasTextNames upper) :
    ∃ next nextFrameworks, Settings.overlay lower upper = .ok next ∧
      NamesFrameworks next nextFrameworks := by
  have kept : Entries.find? (Entries.putAll lower
      (upper.filter fun entry => !entry.1.same frameworksKey)) frameworksKey =
        lower.find? frameworksKey := by
    refine Entries.find?_putAll_of_ne (fun entry member => ?_) lower
    have other := (List.mem_filter.mp member).2
    simpa [Key.same] using other
  unfold Settings.overlay
  dsimp only
  split
  · rename_i items isList
    have each : ∀ framework ∈ frameworkEntries (some (.list items)),
        framework.keys.Nodup ∧ ∃ name?, HasName framework name? := by
      intro framework member
      have isMap := (proper.of_find? isList).of_mem_list (mem_list_of_mem_frameworkEntries member)
      exact ⟨isMap.nodup_keys, textNames framework (isList ▸ member)⟩
    obtain ⟨next, isNext, areNext, isFirst⟩ := names.areNamed.placeAll each
    have laid : overlayFrameworks (frameworkEntries (lower.find? frameworksKey))
        (frameworkEntries (some (.list items))) = .ok (next.map (·.2)) := by
      rw [names.listed, frameworkEntries_list]
      exact bind_eq_ok.mpr
        ⟨frameworks, mapM_nameKey names.areNamed.named, bind_eq_ok.mpr ⟨next, isNext, rfl⟩⟩
    refine ⟨_, next, bind_eq_ok.mpr ⟨_, laid, rfl⟩, ⟨?_, areNext, names.defaultsFirst.trans isFirst⟩⟩
    rw [Entries.find?_put_self _ rfl, List.map_map]
    rfl
  · exact ⟨_, frameworks, rfl, ⟨kept ▸ names.listed, names.areNamed, names.defaultsFirst⟩⟩

end ComponentAtlas.Settings
