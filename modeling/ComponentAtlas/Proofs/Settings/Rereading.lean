/-
Module: ComponentAtlas.Proofs.Settings.Rereading
Purpose: Settings that were read from written ones are read again as they are.
Main exports:
  Amount.sameValue, Settings.SameValue, Settings.IsRead, isRead_of_ofEntries,
  overlay_default_entries, ofEntries_entries, Settings.IsRead.sameValue_reread
-/
import ComponentAtlas.Proofs.Settings.Merging

namespace ComponentAtlas

/-!
Amounts are compared as numbers: one that was written as a whole number is read as a float.
-/

open Float.Model in
/-- A float that stands for a number is as great as itself. -/
theorem compare_self_of_not_isNaN {value : UnpackedFloat} (isNumber : value.isNaN = false) :
    value.compare value = some .eq := by
  cases value with
  | notANumber => cases isNumber
  | infinity sign => cases sign <;> rfl
  | zero sign => cases sign <;> rfl
  | finite sign mantissa exponent positive =>
      have isSame : (compare exponent exponent).then (compare mantissa mantissa) = .eq := by simp
      cases sign with
      | positive => exact congrArg some isSame
      | negative => exact congrArg (fun order => some order.swap) isSame

theorem beq_self_of_not_isNaN {value : Float} (isNumber : value.isNaN = false) : value == value := by
  have equal := compare_self_of_not_isNaN isNumber
  change (value.toModel.unpack.compare value.toModel.unpack == some .eq) = true
  rw [equal]
  rfl

namespace Amount

/-- Two amounts are the same number. -/
def sameValue : Amount → Amount → Bool
  | .whole left, .whole right => left = right
  | .whole left, .real right => Key.wholeFloat? right = some left
  | .real left, .whole right => Key.wholeFloat? left = some right
  | .real left, .real right => left == right

/-- The amount is a number, as every one is but the float that is none. -/
def isNumber : Amount → Bool
  | .whole _ => true
  | .real value => !value.isNaN

/-- The amount was read from a written one, or it is the one for what is not written. -/
def IsRead (amount : Amount) : Prop := amount = .whole 300 ∨ ∃ value, amount = .real value

variable {amount : Amount}

theorem IsRead.sameValue_toFloat (isRead : amount.IsRead) (isNumber : amount.isNumber) :
    sameValue (.real amount.toFloat) amount := by
  rcases isRead with rfl | ⟨value, rfl⟩
  · decide +kernel
  · have notNaN : value.isNaN = false := by simpa [Amount.isNumber] using isNumber
    exact beq_self_of_not_isNaN notNaN

end Amount

/-- Settings are the same, their amounts compared as numbers. -/
structure Settings.SameValue (left right : Settings) : Prop where
  refreshInterval : left.refreshInterval.sameValue right.refreshInterval
  designSystemTtl : left.designSystemTtl.sameValue right.designSystemTtl
  others : left = { right with
    refreshInterval := left.refreshInterval
    designSystemTtl := left.designSystemTtl }

/-- What holds of settings that were read: every framework has a name of its own, those of
the default settings come first, and the amounts were read as well. -/
structure Settings.IsRead (settings : Settings) : Prop where
  named : ∀ framework ∈ settings.frameworks, framework.name ≠ ""
  distinct : (settings.frameworks.map (·.name)).Nodup
  defaultsFirst : Settings.default.frameworks.map (·.name) <+: settings.frameworks.map (·.name)
  refreshInterval : settings.refreshInterval.IsRead
  designSystemTtl : settings.designSystemTtl.IsRead

namespace Settings

variable {settings : Settings} {framework : FrameworkSettings}

/-!
Reading: the names of the frameworks are the keys under which they stand.
-/

/-- The name that a framework under a key has when it is read. -/
def shownName? : Key → Option String
  | .text name => if name.isEmpty then none else some name
  | _ => none

theorem shownName?_eq_some {key : Key} {name : String} :
    shownName? key = some name ↔ key = .text name ∧ name ≠ "" := by
  cases key with
  | text written =>
      by_cases isEmpty : written = ""
      · subst isEmpty
        exact iff_of_false (by simp [shownName?]) fun ⟨isKey, ne⟩ => ne (Key.text.inj isKey).symm
      · simp only [shownName?, String.isEmpty_iff, isEmpty, if_false, Option.some.injEq, Key.text.injEq]
        constructor
        · rintro rfl
          exact ⟨rfl, isEmpty⟩
        · exact And.left
  | _ => simp [shownName?]

theorem name_of_framework? {entries : Entries} {name? : Option String} {found : Option FrameworkSettings}
    (named : HasName entries name?) (done : framework? entries = .ok found) :
    found.map (·.name) = shownName? (keyOf name?) := by
  obtain ⟨text?, isText, done⟩ := bind_eq_ok.mp done
  change asText? ((entries.find? (.text "name")).getD .null) = .ok text? at isText
  cases name? with
  | none =>
      have isNone : text? = none := by
        rcases named with missing | isNull
        · rw [missing] at isText
          cases isText
          rfl
        · rw [isNull] at isText
          cases isText
          rfl
      subst isNone
      cases done
      rfl
  | some name =>
      rw [HasName] at named
      rw [named] at isText
      cases isText
      dsimp only at done
      unfold shownName? keyOf
      dsimp only
      split at done
      · rename_i isEmpty
        cases done
        rw [if_pos isEmpty]
        rfl
      · rename_i notEmpty
        obtain ⟨fileExtensions, -, done⟩ := bind_eq_ok.mp done
        obtain ⟨componentPatterns, -, done⟩ := bind_eq_ok.mp done
        obtain ⟨stylePatterns, -, done⟩ := bind_eq_ok.mp done
        cases done
        rw [if_neg notEmpty]
        rfl

theorem names_of_frameworksIn {frameworks : List (Key × Entries)} {found : List FrameworkSettings}
    (named : ∀ entry ∈ frameworks, ∃ name?, entry.1 = keyOf name? ∧ HasName entry.2 name?)
    (done : frameworksIn (frameworks.map fun entry => .map entry.2) = .ok found) :
    found.map (·.name) = (frameworks.map (·.1)).filterMap shownName? := by
  induction frameworks generalizing found with
  | nil =>
      cases done
      rfl
  | cons entry rest ih =>
      obtain ⟨first?, isFirst, done⟩ := bind_eq_ok.mp done
      obtain ⟨others, areOthers, done⟩ := bind_eq_ok.mp done
      cases done
      obtain ⟨name?, isKey, hasName⟩ := named entry List.mem_cons_self
      have firstName := name_of_framework? hasName isFirst
      have otherNames :=
        ih (fun other later => named other (List.mem_cons_of_mem _ later)) areOthers
      rw [← isKey] at firstName
      rw [List.map_append, List.map_cons, List.filterMap_cons, otherNames, ← firstName]
      cases first? <;> rfl

theorem isRead_of_amountOr {value : Option Data} {amount : Amount}
    (done : amountOr (.whole 300) value = .ok amount) : amount.IsRead := by
  unfold amountOr at done
  cases isFloat : asFloat? value with
  | error fault =>
      rw [isFloat] at done
      cases done
  | ok found? =>
      rw [isFloat] at done
      cases done
      cases found? with
      | none => exact .inl rfl
      | some value => exact .inr ⟨value, rfl⟩

/-- Settings are read from entries whose frameworks are named. -/
theorem isRead_of_ofEntries {entries : Entries} {frameworks : List (Key × Entries)}
    (names : NamesFrameworks entries frameworks) (done : ofEntries entries = .ok settings) :
    settings.IsRead := by
  obtain ⟨areFrameworks, isInterval, isTtl, -⟩ := ofEntries_spec done
  change frameworksOr Settings.default.frameworks (entries.find? frameworksKey) =
    .ok settings.frameworks at areFrameworks
  rw [names.listed] at areFrameworks
  have areNames := names_of_frameworksIn names.areNamed.named areFrameworks
  refine ⟨?_, ?_, ?_, isRead_of_amountOr isInterval, isRead_of_amountOr isTtl⟩
  · intro framework member
    have isName : framework.name ∈ settings.frameworks.map (·.name) := List.mem_map_of_mem member
    rw [areNames, List.mem_filterMap] at isName
    obtain ⟨key, -, isShown⟩ := isName
    exact (shownName?_eq_some.mp isShown).2
  · rw [areNames]
    refine names.areNamed.distinct.filterMap ?_
    intro left right name isLeft isRight
    rw [Option.mem_def, shownName?_eq_some] at isLeft isRight
    exact isLeft.1.trans isRight.1.symm
  · rw [areNames]
    exact names.defaultsFirst.filterMap shownName?

/-!
Reading what was written: every value already has the right type.
-/

theorem asTexts_map_text (items : List String) : asTexts (items.map .text) = .ok items := by
  induction items with
  | nil => rfl
  | cons item rest ih => exact bind_eq_ok.mpr ⟨some item, rfl, bind_eq_ok.mpr ⟨rest, ih, rfl⟩⟩

theorem amountOr_data {amount : Amount} (isRead : amount.IsRead) (default : Amount) :
    amountOr default (some amount.data) = .ok (.real amount.toFloat) := by
  rcases isRead with rfl | ⟨value, rfl⟩
  · have finite : (Float.ofInt 300).isInf = false := by decide +kernel
    simp [Amount.data, Amount.toFloat, amountOr, asFloat?, floatOfInt, finite, Except.map]
  · rfl

end Settings

/-- The entries of a framework in its written form. -/
def FrameworkSettings.entries (framework : FrameworkSettings) : Entries :=
  [(.text "name", .text framework.name), (.text "enabled", .bool framework.enabled),
    (.text "fileExtensions", .texts framework.fileExtensions),
    (.text "componentPatterns", .texts framework.componentPatterns),
    (.text "stylePatterns", .texts framework.stylePatterns)]

theorem FrameworkSettings.data_eq (framework : FrameworkSettings) :
    framework.data = .map framework.entries := rfl

/-- The entries of settings in their written form. -/
def Settings.entries (settings : Settings) : Entries :=
  settings.fields.map fun field => (.text field.1, field.2)

theorem Settings.data_eq (settings : Settings) : settings.data = .map settings.entries := rfl

namespace Settings

variable {settings : Settings} {framework : FrameworkSettings}

theorem framework?_entries (named : framework.name ≠ "") :
    framework? framework.entries = .ok (some framework) := by
  have notEmpty : ¬framework.name.isEmpty := fun isEmpty => named (String.isEmpty_iff.mp isEmpty)
  refine bind_eq_ok.mpr ⟨some framework.name, rfl, ?_⟩
  dsimp only
  rw [if_neg notEmpty]
  refine bind_eq_ok.mpr ⟨_, asTexts_map_text framework.fileExtensions, ?_⟩
  refine bind_eq_ok.mpr ⟨_, asTexts_map_text framework.componentPatterns, ?_⟩
  exact bind_eq_ok.mpr ⟨_, asTexts_map_text framework.stylePatterns, rfl⟩

theorem frameworksIn_data {frameworks : List FrameworkSettings}
    (named : ∀ framework ∈ frameworks, framework.name ≠ "") :
    frameworksIn (frameworks.map FrameworkSettings.data) = .ok frameworks := by
  induction frameworks with
  | nil => rfl
  | cons framework rest ih =>
      have isFirst := framework?_entries (named framework List.mem_cons_self)
      have areOthers := ih fun other later => named other (List.mem_cons_of_mem _ later)
      exact bind_eq_ok.mpr ⟨_, isFirst, bind_eq_ok.mpr ⟨rest, areOthers, rfl⟩⟩

/-- Written settings are read as they are, their amounts as floats. -/
theorem ofEntries_entries (isRead : settings.IsRead) :
    ofEntries settings.entries = .ok { settings with
      refreshInterval := .real settings.refreshInterval.toFloat
      designSystemTtl := .real settings.designSystemTtl.toFloat } := by
  refine bind_eq_ok.mpr ⟨_, frameworksIn_data isRead.named, ?_⟩
  refine bind_eq_ok.mpr ⟨_, amountOr_data isRead.refreshInterval _, ?_⟩
  refine bind_eq_ok.mpr ⟨_, amountOr_data isRead.designSystemTtl _, ?_⟩
  refine bind_eq_ok.mpr ⟨_, asTexts_map_text settings.scanPaths, ?_⟩
  refine bind_eq_ok.mpr ⟨_, asTexts_map_text settings.excludePatterns, ?_⟩
  exact bind_eq_ok.mpr ⟨_, asTexts_map_text settings.componentPatterns, rfl⟩

/-!
Laying written settings over the default ones: every default entry is replaced, and every
default framework by the one of its name.
-/

/-- A written framework has the same fields as any other, so none of the lower one is left. -/
theorem mergeEntries_entries (lower upper : FrameworkSettings) :
    mergeEntries lower.entries upper.entries = upper.entries := by
  rfl

theorem changeLast?_of_last {α : Type} {test : α → Bool} (change : α → α) (before : List α)
    {item : α} {after : List α} (passes : test item) (isLast : ∀ later ∈ after, ¬test later) :
    changeLast? test change (before ++ item :: after) = some (before ++ change item :: after) := by
  induction before with
  | nil =>
      rcases changeLast?_cases test change after with ⟨isNone, -⟩ | ⟨front, later, back, rfl, ok, -⟩
      · simp [changeLast?, isNone, passes]
      · exact absurd ok (isLast later (by simp))
  | cons first rest ih => simp [changeLast?, ih]

/-- The frameworks of settings in their written form, under their keys. -/
def keyed (frameworks : List FrameworkSettings) : List (Key × Entries) :=
  frameworks.map fun framework => (.text framework.name, framework.entries)

theorem keyed_named (frameworks : List FrameworkSettings) :
    ∀ entry ∈ keyed frameworks, ∃ name?, entry.1 = keyOf name? ∧ HasName entry.2 name? := by
  intro entry member
  obtain ⟨framework, -, rfl⟩ := List.mem_map.mp member
  exact ⟨some framework.name, rfl, rfl⟩

theorem map_data_eq (frameworks : List FrameworkSettings) :
    frameworks.map FrameworkSettings.data = (keyed frameworks).map fun entry => .map entry.2 := by
  rw [keyed, List.map_map]
  rfl

theorem not_same_of_mem_keyed {name : String} {frameworks : List FrameworkSettings}
    (new : name ∉ frameworks.map (·.name)) :
    ∀ entry ∈ keyed frameworks, ¬entry.1.same (.text name) := by
  intro entry member isSame
  obtain ⟨framework, isFramework, rfl⟩ := List.mem_map.mp member
  rw [Key.same_text, decide_eq_true_eq] at isSame
  exact new (isSame ▸ List.mem_map_of_mem isFramework)

theorem placeFramework_of_new {frameworks : List FrameworkSettings}
    (new : framework.name ∉ frameworks.map (·.name)) :
    placeFramework (keyed frameworks) (.text framework.name) framework.entries =
      keyed (frameworks ++ [framework]) := by
  unfold placeFramework
  rcases changeLast?_cases (fun entry : Key × Entries => entry.1.same (.text framework.name))
      (fun entry => (entry.1, mergeEntries entry.2 framework.entries)) (keyed frameworks) with
    ⟨isNone, -⟩ | ⟨before, item, after, isSplit, isSame, -⟩
  · rw [isNone, Option.getD_none, keyed, keyed, List.map_append]
    rfl
  · exact absurd isSame (not_same_of_mem_keyed new item (isSplit ▸ by simp))

theorem keyed_append_cons (before : List FrameworkSettings) (framework : FrameworkSettings)
    (after : List FrameworkSettings) :
    keyed (before ++ framework :: after) =
      keyed before ++ (.text framework.name, framework.entries) :: keyed after := by
  rw [keyed, List.map_append, List.map_cons]
  rfl

theorem placeFramework_of_sameName {placed below : List FrameworkSettings}
    {replaced : FrameworkSettings} (sameName : replaced.name = framework.name)
    (isLast : framework.name ∉ below.map (·.name)) :
    placeFramework (keyed (placed ++ replaced :: below)) (.text framework.name) framework.entries =
      keyed (placed ++ framework :: below) := by
  have isSame : (Key.text replaced.name, replaced.entries).1.same (.text framework.name) := by
    rw [sameName, Key.same_text, decide_eq_true_eq]
  have changed := changeLast?_of_last
    (fun entry : Key × Entries => (entry.1, mergeEntries entry.2 framework.entries)) (keyed placed)
    isSame (not_same_of_mem_keyed isLast)
  rw [keyed_append_cons, keyed_append_cons, placeFramework, changed, Option.getD_some]
  dsimp only
  rw [mergeEntries_entries, sameName]

/-- While frameworks replace those that have the same names in the same order, the ones that
were placed stand before those that are still to be replaced. -/
theorem foldlM_placeFramework (placed : List FrameworkSettings) {below upper : List FrameworkSettings}
    (distinct : ((placed ++ upper).map (·.name)).Nodup)
    (sameNames : below.map (·.name) <+: upper.map (·.name)) :
    ((keyed upper).map (·.2)).foldlM (fun frameworks entries =>
        return placeFramework frameworks (← nameKey entries) entries) (keyed (placed ++ below)) =
      (.ok (keyed (placed ++ upper)) : Except Fault (List (Key × Entries))) := by
  induction upper generalizing placed below with
  | nil =>
      obtain rfl : below = [] := by simpa using sameNames
      rfl
  | cons framework rest ih =>
      have distinctNext : ((placed ++ [framework] ++ rest).map (·.name)).Nodup := by
        rwa [List.append_assoc]
      obtain ⟨newName, isLast⟩ : framework.name ∉ placed.map (·.name) ∧
          framework.name ∉ rest.map (·.name) := by
        rw [List.map_append, List.map_cons, List.nodup_middle, List.nodup_cons] at distinct
        simpa using distinct.1
      have isCons : keyed (framework :: rest) = (.text framework.name, framework.entries) :: keyed rest :=
        rfl
      rw [isCons, List.map_cons, List.foldlM_cons]
      refine bind_eq_ok.mpr ⟨_, rfl, ?_⟩
      cases below with
      | nil =>
          have sameNext : ([] : List FrameworkSettings).map (·.name) <+: rest.map (·.name) :=
            List.nil_prefix
          have isNext := ih _ distinctNext sameNext
          rw [List.append_nil, List.append_assoc] at isNext
          rw [List.append_nil, placeFramework_of_new newName]
          exact isNext
      | cons replaced later =>
          rw [List.map_cons, List.map_cons, List.cons_prefix_cons] at sameNames
          have isNext := ih _ distinctNext sameNames.2
          rw [List.append_assoc, List.append_assoc] at isNext
          have notLater : framework.name ∉ later.map (·.name) := fun member =>
            isLast (sameNames.2.subset member)
          rw [placeFramework_of_sameName sameNames.1 notLater]
          exact isNext

/-- Written settings that were read replace all that is there by default. -/
theorem overlay_default_entries (isRead : settings.IsRead) :
    overlay defaultEntries settings.entries = .ok settings.entries := by
  have laid : overlayFrameworks ((keyed Settings.default.frameworks).map (·.2))
      ((keyed settings.frameworks).map (·.2)) = .ok ((keyed settings.frameworks).map (·.2)) := by
    have placed := foldlM_placeFramework [] isRead.distinct isRead.defaultsFirst
    exact bind_eq_ok.mpr ⟨_, mapM_nameKey (keyed_named _), bind_eq_ok.mpr ⟨_, placed, rfl⟩⟩
  have below : defaultEntries.find? frameworksKey =
      some (.list (Settings.default.frameworks.map FrameworkSettings.data)) := rfl
  have above : settings.entries.find? frameworksKey =
      some (.list (settings.frameworks.map FrameworkSettings.data)) := rfl
  have written : ((keyed settings.frameworks).map (·.2)).map Data.map =
      settings.frameworks.map FrameworkSettings.data := by
    rw [map_data_eq, List.map_map]
    rfl
  unfold overlay
  rw [above, below]
  dsimp only
  rw [map_data_eq, map_data_eq, frameworkEntries_list, frameworkEntries_list, laid]
  refine bind_eq_ok.mpr ⟨_, rfl, ?_⟩
  rw [written]
  rfl

/-- Settings that were read are the same when they are written and read again. -/
theorem IsRead.sameValue_reread (isRead : settings.IsRead)
    (isInterval : settings.refreshInterval.isNumber) (isTtl : settings.designSystemTtl.isNumber) :
    ∃ reread, (overlay defaultEntries settings.entries >>= ofEntries) = .ok reread ∧
      reread.SameValue settings := by
  refine ⟨_, bind_eq_ok.mpr ⟨_, overlay_default_entries isRead, ofEntries_entries isRead⟩, ?_⟩
  exact {
    refreshInterval := isRead.refreshInterval.sameValue_toFloat isInterval
    designSystemTtl := isRead.designSystemTtl.sameValue_toFloat isTtl
    others := rfl }

end Settings

end ComponentAtlas
