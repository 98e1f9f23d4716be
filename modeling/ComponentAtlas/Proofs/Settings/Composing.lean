/-
Module: ComponentAtlas.Proofs.Settings.Composing
Purpose: Two changes of the settings, one after the other and put together.
Main exports:
  HasPlainFrameworks, Holds, overlay_spec, overlay_overlay, Workspace.SameAs,
  Workspace.update_update
-/
import ComponentAtlas.Proofs.Settings.Placing
import ComponentAtlas.Proofs.Settings.Rereading
import ComponentAtlas.Proofs.Settings.Updating

namespace ComponentAtlas

namespace Settings

variable {lower middle upper left right : Entries} {below above : List (Key × Entries)}

/-- Written settings with distinct keys and plain frameworks.  What is written for the
frameworks may be no list, and what is in the list may be no framework. -/
structure HasPlainFrameworks (given : Entries) : Prop where
  distinct : given.keys.Nodup
  plain : ∀ framework ∈ frameworkEntries (given.find? frameworksKey), IsPlain framework

/-- Written settings whose frameworks are the given ones, under their keys. -/
structure Holds (given : Entries) (frameworks : List (Key × Entries)) : Prop where
  distinct : given.keys.Nodup
  listed : frameworkEntries (given.find? frameworksKey) = frameworks.map (·.2)
  keyed : ∀ entry ∈ frameworks, IsKeyed entry

theorem exists_isKeyed {items : List Entries} (each : ∀ framework ∈ items, IsPlain framework) :
    ∃ frameworks : List (Key × Entries), items = frameworks.map (·.2) ∧
      ∀ entry ∈ frameworks, IsKeyed entry := by
  induction items with
  | nil => exact ⟨[], rfl, by simp⟩
  | cons framework rest ih =>
      rw [List.forall_mem_cons] at each
      obtain ⟨key, keyed⟩ := each.1.exists_isKeyed
      obtain ⟨others, rfl, areKeyed⟩ := ih each.2
      exact ⟨(key, framework) :: others, rfl, List.forall_mem_cons.mpr ⟨keyed, areKeyed⟩⟩

theorem HasPlainFrameworks.exists_holds {given : Entries} (plain : HasPlainFrameworks given) :
    ∃ frameworks, Holds given frameworks := by
  obtain ⟨frameworks, listed, keyed⟩ := exists_isKeyed plain.plain
  exact ⟨frameworks, plain.distinct, listed, keyed⟩

theorem isPlain_entries (framework : FrameworkSettings) : IsPlain framework.entries where
  distinct := by
    change [Key.text "name", .text "enabled", .text "fileExtensions", .text "componentPatterns",
      .text "stylePatterns"].Nodup
    decide
  flat := by simp [IsFlat, FrameworkSettings.entries, Data.texts]
  named := ⟨some framework.name, rfl⟩

/-- Settings in their written form have plain frameworks. -/
theorem hasPlainFrameworks_entries (settings : Settings) : HasPlainFrameworks settings.entries where
  distinct := by
    change [Key.text "scanPaths", .text "excludePatterns", .text "componentPatterns",
      .text "cacheEnabled", .text "autoRefresh", .text "refreshInterval", .text "cacheMaxSize",
      .text "designSystemTtl", .text "frameworks"].Nodup
    decide
  plain := by
    have listed : settings.entries.find? frameworksKey =
        some (.list (settings.frameworks.map FrameworkSettings.data)) := rfl
    rw [listed, map_data_eq, frameworkEntries_list]
    intro entries member
    obtain ⟨_, inKeyed, rfl⟩ := List.mem_map.mp member
    obtain ⟨framework, -, rfl⟩ := List.mem_map.mp inKeyed
    exact isPlain_entries framework

/-- What is written for the frameworks when others are written over them: a list only when the
upper ones are a list. -/
def laidFrameworks (lower upper : Option Data) (placed : List (Key × Entries)) : Option Data :=
  match upper with
  | some (.list _) => some (.list (placed.map fun entry => .map entry.2))
  | _ => lower

section

variable {data? : Option Data} (notList : ∀ items, data? = some (.list items) → False)

include notList

theorem frameworkEntries_of_not_list : frameworkEntries data? = [] := by
  unfold frameworkEntries
  split
  · rename_i items
    exact absurd rfl (notList items)
  · rfl

theorem laidFrameworks_of_not_list (lower : Option Data) (placed : List (Key × Entries)) :
    laidFrameworks lower data? placed = lower := by
  unfold laidFrameworks
  split
  · rename_i items
    exact absurd rfl (notList items)
  · rfl

end

theorem Holds.eq_nil {given : Entries} {frameworks : List (Key × Entries)}
    (holds : Holds given frameworks)
    (notList : ∀ items, given.find? frameworksKey = some (.list items) → False) : frameworks = [] :=
  List.map_eq_nil_iff.mp (holds.listed.symm.trans (frameworkEntries_of_not_list notList))

/-- What is written for the frameworks in the end, when the upper list is the only one that
can change what the other two were put together to. -/
theorem laidFrameworks_laidFrameworks (lower middle : Option Data) {upper : Option Data}
    {first last : List (Key × Entries)} (both : List (Key × Entries))
    (unchanged : (∀ items, upper = some (.list items) → False) → last = first) :
    laidFrameworks (laidFrameworks lower middle first) upper last =
      laidFrameworks lower (laidFrameworks middle upper both) last := by
  by_cases isList : ∃ items, upper = some (.list items)
  · obtain ⟨items, rfl⟩ := isList
    rfl
  · have notList : ∀ items, upper = some (.list items) → False := not_exists.mp isList
    rw [laidFrameworks_of_not_list notList, laidFrameworks_of_not_list notList, unchanged notList]

/-- Of anything but the frameworks the upper value counts. -/
theorem find?_putAll_others (distinct : upper.keys.Nodup) (lower : Entries) (key : Key) :
    Entries.find? (lower.putAll (upper.filter fun entry => !entry.1.same frameworksKey)) key =
      if key.same frameworksKey then lower.find? frameworksKey
      else (upper.find? key).or (lower.find? key) := by
  rw [Entries.find?_putAll (Entries.nodup_keys_filter distinct _), Entries.find?_filter_not_same]
  split
  · rename_i isKey
    rw [Option.none_or, Entries.find?_congr (Entries.same_iff.mp isKey)]
  · rfl

/-- What is found in settings laid over others: frameworks that were put together, and the
upper value of anything else. -/
theorem overlay_spec (isLower : Holds lower below) (isUpper : Holds upper above) :
    ∃ next, overlay lower upper = .ok next ∧ Holds next (placeAll below above) ∧
      ∀ key, next.find? key =
        if key.same frameworksKey then
          laidFrameworks (lower.find? frameworksKey) (upper.find? frameworksKey)
            (placeAll below above)
        else (upper.find? key).or (lower.find? key) := by
  have found := find?_putAll_others isUpper.distinct lower
  have distinct := Entries.nodup_keys_putAll isLower.distinct
    (upper.filter fun entry => !entry.1.same frameworksKey)
  unfold overlay
  dsimp only
  split
  · rename_i items isList
    have laid : overlayFrameworks (frameworkEntries (lower.find? frameworksKey))
        (frameworkEntries (some (.list items))) = .ok ((placeAll below above).map (·.2)) := by
      rw [isLower.listed, ← isList, isUpper.listed]
      exact overlayFrameworks_keyed isLower.keyed isUpper.keyed
    refine ⟨_, bind_eq_ok.mpr ⟨_, laid, rfl⟩, ⟨?_, ?_, isKeyed_placeAll isLower.keyed isUpper.keyed⟩, ?_⟩
    · exact Entries.nodup_keys_put distinct _ _
    · rw [Entries.find?_put_self _ rfl, List.map_map]
      exact frameworkEntries_list _
    · intro key
      split
      · rename_i isKey
        rw [Entries.find?_put_self _ (Entries.same_iff.mp isKey).symm, List.map_map, isList]
        rfl
      · rename_i notKey
        have ne : frameworksKey.canonical ≠ key.canonical := fun same =>
          notKey (Entries.same_iff.mpr same.symm)
        rw [Entries.find?_put_of_ne ne, found, if_neg notKey]
  · rename_i notList
    obtain rfl := isUpper.eq_nil notList
    refine ⟨_, rfl, ⟨distinct, ?_, isLower.keyed⟩, fun key => ?_⟩
    · rw [found, if_pos (Entries.same_iff.mpr rfl)]
      exact isLower.listed
    · rw [found, laidFrameworks_of_not_list notList]

/-- Settings laid over others that were laid over others: it does not matter which are put
together first. -/
theorem overlay_overlay (isLower : HasPlainFrameworks lower) (isMiddle : HasPlainFrameworks middle)
    (isUpper : HasPlainFrameworks upper) :
    ∃ below above left right, overlay lower middle = .ok below ∧ overlay below upper = .ok left ∧
      overlay middle upper = .ok above ∧ overlay lower above = .ok right ∧ left.SameAs right := by
  obtain ⟨lowest, holdsLower⟩ := isLower.exists_holds
  obtain ⟨central, holdsMiddle⟩ := isMiddle.exists_holds
  obtain ⟨highest, holdsUpper⟩ := isUpper.exists_holds
  obtain ⟨below, isBelow, holdsBelow, foundBelow⟩ := overlay_spec holdsLower holdsMiddle
  obtain ⟨above, isAbove, holdsAbove, foundAbove⟩ := overlay_spec holdsMiddle holdsUpper
  obtain ⟨left, isLeft, -, foundLeft⟩ := overlay_spec holdsBelow holdsUpper
  obtain ⟨right, isRight, -, foundRight⟩ := overlay_spec holdsLower holdsAbove
  refine ⟨below, above, left, right, isBelow, isLeft, isAbove, isRight, fun key => ?_⟩
  have isFrameworks : frameworksKey.same frameworksKey := Entries.same_iff.mpr rfl
  rw [foundLeft, foundRight, foundBelow frameworksKey, foundAbove frameworksKey, if_pos isFrameworks,
    if_pos isFrameworks, placeAll_placeAll holdsMiddle.keyed holdsUpper.keyed]
  split
  · refine laidFrameworks_laidFrameworks _ _ _ fun notList => ?_
    rw [holdsUpper.eq_nil notList]
    rfl
  · rename_i notKey
    rw [foundBelow, foundAbove, if_neg notKey, if_neg notKey, Option.or_assoc]

/-- Settings are read from what is found, not from the order in which it was written. -/
theorem ofEntries_congr (same : left.SameAs right) : ofEntries left = ofEntries right := by
  have sameField : ∀ key, left.find? key = right.find? key := same
  simp only [ofEntries, sameField]

end Settings

namespace Workspace

open Settings

variable {workspace : Workspace} {first second updates entries : Entries}

/-- Two projects of the same place have the same settings in use, and the same is found in
their written ones. -/
structure SameAs (left right : Workspace) : Prop where
  users : left.users = right.users
  root : left.root = right.root
  configPath : left.configPath = right.configPath
  entries : left.entries.SameAs right.entries
  settings : left.settings = right.settings

/-- Settings that were laid over those of a project but cannot be read are its written ones. -/
theorem update_of_unread {fault : Fault} (laid : overlay workspace.entries updates = .ok entries)
    (unread : ofEntries entries = .error fault) :
    workspace.update updates = ({ workspace with entries }, some fault) := by
  simp only [update, laid, unread]

theorem exists_update_of_overlay (laid : overlay workspace.entries updates = .ok entries) :
    ∃ settings, (workspace.update updates).1 = { workspace with entries, settings } := by
  cases inUse : ofEntries entries with
  | error fault => exact ⟨_, congrArg Prod.fst (update_of_unread laid inUse)⟩
  | ok settings => exact ⟨settings, congrArg Prod.fst (update_of_ok laid inUse)⟩

/-- Two changes of the settings, and the one change that is both put together: the same is
written in the end, and an empty change writes nothing.  Either way the last change is made, or
it fails with the same fault.  The same project is left, unless the settings cannot be read in
the end and the first change alone brought others into use. -/
theorem update_update (isPlain : HasPlainFrameworks workspace.entries)
    (isFirst : HasPlainFrameworks first) (isSecond : HasPlainFrameworks second) :
    overlay workspace.entries [] = .ok workspace.entries ∧
    ∃ halfway both left right,
      overlay workspace.entries first = .ok halfway ∧ overlay halfway second = .ok left ∧
      overlay first second = .ok both ∧ overlay workspace.entries both = .ok right ∧
      left.SameAs right ∧
      let twice := (workspace.update first).1.update second
      let once := workspace.update both
      twice.2 = once.2 ∧ twice.1.entries = left ∧ once.1.entries = right ∧
      (twice.1.SameAs once.1 ↔
        twice.2 = none ∨ (workspace.update first).1.settings = workspace.settings) := by
  refine ⟨overlay_nil _, ?_⟩
  obtain ⟨halfway, both, left, right, isHalfway, isLeft, isBoth, isRight, same⟩ :=
    overlay_overlay isPlain isFirst isSecond
  refine ⟨halfway, both, left, right, isHalfway, isLeft, isBoth, isRight, same, ?_⟩
  dsimp only
  obtain ⟨settings, isNext⟩ := exists_update_of_overlay isHalfway
  have laidTwice : overlay (workspace.update first).1.entries second = .ok left := by
    rw [isNext]
    exact isLeft
  have sameReading := ofEntries_congr same
  cases read : ofEntries left with
  | error fault =>
      rw [update_of_unread laidTwice read, update_of_unread isRight (sameReading ▸ read), isNext]
      refine ⟨rfl, rfl, rfl, fun agree => .inr agree.settings, fun reason => ?_⟩
      have sameSettings : settings = workspace.settings := by simpa using reason
      exact ⟨rfl, rfl, rfl, same, sameSettings⟩
  | ok inUse =>
      rw [update_of_ok laidTwice read, update_of_ok isRight (sameReading ▸ read), isNext]
      exact ⟨rfl, rfl, rfl, fun _ => .inl rfl, fun _ => ⟨rfl, rfl, rfl, same, rfl⟩⟩

/-- A smaller cache, and a framework that is listed twice. -/
def smallerCache : Entries :=
  [(.text "cacheMaxSize", .int 5),
    (.text "frameworks", .list [.map [(.text "name", .text "vue")], .null,
      .map [(.text "name", .text "vue"), (.text "enabled", .bool false)]])]

theorem hasPlainFrameworks_smallerCache : HasPlainFrameworks smallerCache where
  distinct := by decide
  plain := by
    have listed : frameworkEntries (smallerCache.find? frameworksKey) =
        [[(.text "name", .text "vue")],
          [(.text "name", .text "vue"), (.text "enabled", .bool false)]] := rfl
    rw [listed, List.forall_mem_cons, List.forall_mem_singleton]
    exact ⟨⟨by decide, by simp [IsFlat], some "vue", rfl⟩,
      ⟨by decide, by simp [IsFlat], some "vue", rfl⟩⟩

/-- A cache that was made smaller stays so when the next change fails, but not when both are
made at once. -/
theorem update_smallerCache_hugeInterval :
    HasPlainFrameworks sampleWorkspace.entries ∧ HasPlainFrameworks smallerCache ∧
    HasPlainFrameworks hugeInterval ∧
    ∃ both, overlay smallerCache hugeInterval = .ok both ∧
      ((sampleWorkspace.update smallerCache).1.update hugeInterval).2 = some .numberTooLarge ∧
      (sampleWorkspace.update both).2 = some .numberTooLarge ∧
      ¬((sampleWorkspace.update smallerCache).1.update hugeInterval).1.SameAs
        (sampleWorkspace.update both).1 := by
  have isPlain : HasPlainFrameworks sampleWorkspace.entries :=
    hasPlainFrameworks_entries Settings.default
  have isHuge : HasPlainFrameworks hugeInterval :=
    { distinct := by decide, plain := by simp [hugeInterval, Entries.find?, frameworkEntries] }
  obtain ⟨-, -, both, -, -, -, -, isBoth, -, -, sameEnd, -, -, agree⟩ :=
    update_update isPlain hasPlainFrameworks_smallerCache isHuge
  have failed : ((sampleWorkspace.update smallerCache).1.update hugeInterval).2 =
      some .numberTooLarge := by decide +kernel
  have smaller : (sampleWorkspace.update smallerCache).1.settings.cacheMaxSize = 5 := by
    decide +kernel
  refine ⟨isPlain, hasPlainFrameworks_smallerCache, isHuge, both, isBoth, failed,
    sameEnd.symm.trans failed, fun same => ?_⟩
  rcases agree.mp same with done | sameSettings
  · rw [failed] at done
    cases done
  · rw [sameSettings] at smaller
    exact absurd smaller (by decide)

end Workspace

end ComponentAtlas
