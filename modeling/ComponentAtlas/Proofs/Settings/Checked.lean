/-
Module: ComponentAtlas.Proofs.Settings.Checked
Purpose: Settings in which no error was found, and what they are used as.
Main exports:
  IsFrameworkOf, IsFrameworkAsWritten, UsesWritten, HasTextExtensions, checkEntries_spec,
  usesWritten_of_check, usesWritten_iff_of_check
-/
import Mathlib.Data.List.Forall2
import ComponentAtlas.Proofs.Settings.Fallback

namespace ComponentAtlas

namespace Settings

/-!
A check looks at the same fields that settings are made of.  When it finds no error, each
field is of the kind that it is read as, but for the items in the lists of a framework, at
which it does not look.
-/

/-- A framework is the one that is written, its extensions made texts. -/
structure IsFrameworkOf (item : Data) (framework : FrameworkSettings) : Prop where
  name : item.field? "name" = some (.text framework.name)
  enabled : item.field? "enabled" = some (.bool framework.enabled) ∨
    item.field? "enabled" = none ∧ framework.enabled
  fileExtensions : ∃ extensions, extensions ≠ [] ∧
    item.field? "fileExtensions" = some (.list extensions) ∧
    framework.fileExtensions = extensions.filterMap wording?

/-- A framework is the one that is written, and its extensions are those that are written. -/
structure IsFrameworkAsWritten (item : Data) (framework : FrameworkSettings) : Prop
    extends IsFrameworkOf item framework where
  sameExtensions : item.field? "fileExtensions" = some (.texts framework.fileExtensions)

/-- Settings are those that are written, each framework as far as `same` says. -/
structure UsesWritten (same : Data → FrameworkSettings → Prop) (entries : Entries)
    (settings : Settings) : Prop where
  scanPaths : entries.find? (.text "scanPaths") = some (.texts settings.scanPaths)
  excludePatterns :
    entries.find? (.text "excludePatterns") = some (.texts settings.excludePatterns)
  componentPatterns :
    entries.find? (.text "componentPatterns") = some (.texts settings.componentPatterns)
  frameworks : ∃ items, entries.find? (.text "frameworks") = some (.list items) ∧
    List.Forall₂ same items settings.frameworks
  cacheMaxSize : 1 ≤ settings.cacheMaxSize

/-- All extensions of a written framework are texts. -/
def HasTextExtensions (item : Data) : Prop :=
  ∀ extensions, item.field? "fileExtensions" = some (.list extensions) →
    ∀ extension ∈ extensions, isText extension

theorem map_text_wording? {items : List Data} (areTexts : ∀ item ∈ items, isText item) :
    Data.texts (items.filterMap wording?) = .list items := by
  induction items with
  | nil => rfl
  | cons item rest ih =>
      have areOthers := ih fun other later => areTexts other (List.mem_cons_of_mem _ later)
      have isFirst := areTexts item List.mem_cons_self
      cases item with
      | text written =>
          simp only [Data.texts, Data.list.injEq] at areOthers
          simp [Data.texts, wording?, areOthers]
      | _ => cases isFirst

theorem isText_of_mem_texts {texts : List String} {item : Data} {items : List Data}
    (areTexts : Data.texts texts = .list items) (member : item ∈ items) : isText item := by
  simp only [Data.texts, Data.list.injEq] at areTexts
  rw [← areTexts, List.mem_map] at member
  obtain ⟨text, -, rfl⟩ := member
  rfl

/-- A list of texts is read as it is written. -/
theorem listOr_of_areTexts {default texts : List String} {items : List Data}
    (areTexts : ∀ item ∈ items, isText item)
    (done : listOr default (some (.list items)) = .ok texts) :
    some (.list items) = some (Data.texts texts) := by
  obtain ⟨-, rfl⟩ := asTexts_eq_ok.mp done
  rw [map_text_wording? areTexts]

theorem errors_errorIf {condition : Bool} {message : String} :
    (CheckResult.errorIf condition message).errors = [] ↔ condition = false := by
  cases condition <;> simp [CheckResult.errorIf, CheckResult.error]

theorem checkTextList_spec {label : String} {mayBeEmpty : Bool} {value : Option Data}
    {result : CheckResult} (checked : checkTextList label mayBeEmpty value = .ok result)
    (noErrors : result.errors = []) :
    ∃ items, value = some (.list items) ∧ ∀ item ∈ items, isText item := by
  unfold checkTextList at checked
  split at checked
  · split at checked
    · cases checked
      cases noErrors
    · obtain ⟨results, eachChecked, done⟩ := bind_eq_ok.mp checked
      cases done
      refine ⟨_, rfl, fun item member => ?_⟩
      obtain ⟨_, itemChecked, noError⟩ := each_of_mapM eachChecked noErrors item member
      unfold checkTextItem at itemChecked
      split at itemChecked
      · assumption
      · obtain ⟨_, -, done⟩ := bind_eq_ok.mp itemChecked
        cases done
        cases noError
  · cases checked
    cases noErrors

/-- What a framework is written as when no error is found in it. -/
theorem checkFrameworkEntries_spec {entries : Entries}
    (noErrors : (checkFrameworkEntries entries).errors = []) :
    (∃ name, name ≠ "" ∧ entries.find? (.text "name") = some (.text name)) ∧
    (entries.find? (.text "enabled") = none ∨
      ∃ isOn, entries.find? (.text "enabled") = some (.bool isOn)) ∧
    ∃ extensions, extensions ≠ [] ∧
      entries.find? (.text "fileExtensions") = some (.list extensions) := by
  simp only [checkFrameworkEntries, CheckResult.errors_append, List.append_eq_nil_iff,
    errors_errorIf, Bool.not_eq_false'] at noErrors
  obtain ⟨⟨⟨named, switched⟩, filled⟩, -⟩ := noErrors
  refine ⟨?_, ?_, ?_⟩
  · unfold usableName? at named
    split at named
    · rename_i name found
      split at named
      · cases named
      · rename_i notEmpty
        exact ⟨name, by simpa using notEmpty, found⟩
    · cases named
  · unfold isBoolOrMissing at switched
    split at switched
    · rename_i missing
      exact .inl missing
    · rename_i isOn found
      exact .inr ⟨isOn, found⟩
    · cases switched
  · unfold isFilledList at filled
    split at filled
    · rename_i found
      exact ⟨_, List.cons_ne_nil _ _, found⟩
    · cases filled

/-- A framework without an error is made from the map it is written as. -/
theorem framework?_of_checked {entries : Entries} {found : Option FrameworkSettings}
    (noErrors : (checkFrameworkEntries entries).errors = [])
    (done : framework? entries = .ok found) :
    ∃ framework, found = some framework ∧ IsFrameworkOf (.map entries) framework := by
  obtain ⟨⟨name, notEmpty, named⟩, switched, extensions, filled, listed⟩ :=
    checkFrameworkEntries_spec noErrors
  have notBlank : ¬name.isEmpty := by simpa using notEmpty
  simp only [framework?, named, Option.getD_some, asText?, bind_eq_ok, if_neg notBlank, listed,
    asTextList, asTexts_eq_ok, Except.ok.injEq, pure, Except.pure, exists_eq_left'] at done
  obtain ⟨texts, ⟨-, areTexts⟩, _, -, _, -, rfl⟩ := done
  refine ⟨_, rfl, { name := named, enabled := ?_, fileExtensions := ?_ }⟩
  · rcases switched with missing | ⟨isOn, isWritten⟩
    · exact .inr ⟨missing, by simp [missing, asBool?]⟩
    · left
      simp only [isWritten, asBool?, Option.getD_some]
      exact isWritten
  · exact ⟨extensions, filled, listed, areTexts.symm⟩

theorem checkFrameworks_spec {value : Option Data} {result : CheckResult}
    (checked : checkFrameworks value = .ok result) (noErrors : result.errors = []) :
    ∃ items, value = some (.list items) ∧ ∀ item ∈ items, ∃ entries,
      item = .map entries ∧ (checkFrameworkEntries entries).errors = [] := by
  unfold checkFrameworks at checked
  split at checked
  · obtain ⟨results, eachChecked, done⟩ := bind_eq_ok.mp checked
    cases done
    rw [CheckResult.errors_append, List.append_eq_nil_iff] at noErrors
    refine ⟨_, rfl, fun item member => ?_⟩
    obtain ⟨_, itemChecked, noError⟩ := each_of_mapM eachChecked noErrors.2 item member
    unfold checkFramework at itemChecked
    split at itemChecked
    · cases itemChecked
      exact ⟨_, rfl, noError⟩
    · obtain ⟨_, -, done⟩ := bind_eq_ok.mp itemChecked
      cases done
      cases noError
  · cases checked
    cases noErrors

/-- Checked frameworks are made one by one from what is written, in its order. -/
theorem frameworksIn_of_checked {items : List Data} {found : List FrameworkSettings}
    (eachChecked : ∀ item ∈ items, ∃ entries,
      item = .map entries ∧ (checkFrameworkEntries entries).errors = [])
    (done : frameworksIn items = .ok found) : List.Forall₂ IsFrameworkOf items found := by
  induction items generalizing found with
  | nil =>
      cases done
      exact .nil
  | cons item rest ih =>
      obtain ⟨entries, rfl, noErrors⟩ := eachChecked item List.mem_cons_self
      obtain ⟨first?, isFirst, done⟩ := bind_eq_ok.mp done
      obtain ⟨others, areOthers, done⟩ := bind_eq_ok.mp done
      cases done
      obtain ⟨first, rfl, isMade⟩ := framework?_of_checked noErrors isFirst
      exact .cons isMade
        (ih (fun other later => eachChecked other (List.mem_cons_of_mem _ later)) areOthers)

/-- A size without an error is positive, and so is the one that stands for none. -/
theorem cacheMaxSize_of_checked {entries : Entries}
    (noErrors : (checkCaches entries).errors = []) :
    1 ≤ (asInt? (entries.find? (.text "cacheMaxSize"))).getD Settings.default.cacheMaxSize := by
  simp only [checkCaches, CheckResult.errors_append, List.append_eq_nil_iff, errors_errorIf,
    Bool.and_eq_false_iff, Bool.not_eq_false'] at noErrors
  obtain ⟨⟨-, sized⟩, -⟩ := noErrors
  rcases sized with absent | positive
  · unfold isAbsent at absent
    split at absent
    · rename_i missing
      simp [missing, asInt?, Settings.default]
    · rename_i isNull
      simp [isNull, asInt?, Settings.default]
    · cases absent
  · unfold isPositiveInt at positive
    split at positive
    · rename_i size found
      have isPositive : 0 < size := by simpa using positive
      simp only [found, asInt?, Option.getD_some]
      omega
    · cases positive

/-- What a check without errors says about each field. -/
theorem checkEntries_spec {site : Site} {entries : Entries} {result : CheckResult}
    (checked : checkEntries site entries = .ok result) (noErrors : result.errors = []) :
    (∀ name ∈ ["scanPaths", "excludePatterns", "componentPatterns"], ∃ items,
      entries.find? (.text name) = some (.list items) ∧ ∀ item ∈ items, isText item) ∧
    (∃ items, entries.find? (.text "frameworks") = some (.list items) ∧ ∀ item ∈ items,
      ∃ framework, item = .map framework ∧ (checkFrameworkEntries framework).errors = []) ∧
    (checkCaches entries).errors = [] := by
  obtain ⟨scanPaths, areScanPaths, done⟩ := bind_eq_ok.mp checked
  obtain ⟨excluded, areExcluded, done⟩ := bind_eq_ok.mp done
  obtain ⟨frameworks, areFrameworks, done⟩ := bind_eq_ok.mp done
  obtain ⟨patterns, arePatterns, done⟩ := bind_eq_ok.mp done
  cases done
  simp only [CheckResult.errors_append, List.append_eq_nil_iff] at noErrors
  obtain ⟨⟨⟨⟨noPathErrors, noExcludeErrors⟩, noFrameworkErrors⟩, noPatternErrors⟩, noCacheErrors⟩ :=
    noErrors
  refine ⟨?_, checkFrameworks_spec areFrameworks noFrameworkErrors, noCacheErrors⟩
  simp only [List.mem_cons, List.not_mem_nil, or_false, forall_eq_or_imp, forall_eq]
  refine ⟨?_, checkTextList_spec areExcluded noExcludeErrors,
    checkTextList_spec arePatterns noPatternErrors⟩
  obtain ⟨items, found, eachPath⟩ := checkScanPaths_spec areScanPaths noPathErrors
  refine ⟨items, found, fun item member => ?_⟩
  obtain ⟨_, _, rfl, -⟩ := eachPath item member
  rfl

/-- Settings without an error are used as they are written, but for the extensions. -/
theorem usesWritten_of_check {site : Site} {entries : Entries} {result : CheckResult}
    {settings : Settings} (checked : checkEntries site entries = .ok result)
    (noErrors : result.errors = []) (done : ofEntries entries = .ok settings) :
    UsesWritten IsFrameworkOf entries settings := by
  obtain ⟨areTexts, ⟨items, listed, eachChecked⟩, noCacheErrors⟩ :=
    checkEntries_spec checked noErrors
  obtain ⟨areFrameworks, -, -, areScanPaths, areExcluded, arePatterns, -, -, isSize⟩ :=
    ofEntries_spec done
  dsimp only at *
  have written (name : String)
      (member : name ∈ ["scanPaths", "excludePatterns", "componentPatterns"])
      {default texts : List String}
      (read : listOr default (entries.find? (.text name)) = .ok texts) :
      entries.find? (.text name) = some (Data.texts texts) := by
    obtain ⟨items, found, areTexts⟩ := areTexts name member
    rw [found] at read ⊢
    exact listOr_of_areTexts areTexts read
  rw [listed] at areFrameworks
  exact
    { scanPaths := written "scanPaths" (by simp) areScanPaths
      excludePatterns := written "excludePatterns" (by simp) areExcluded
      componentPatterns := written "componentPatterns" (by simp) arePatterns
      frameworks := ⟨items, listed, frameworksIn_of_checked eachChecked areFrameworks⟩
      cacheMaxSize := isSize ▸ cacheMaxSize_of_checked noCacheErrors }

/-- A framework is used as it is written when its extensions are texts, and only then. -/
theorem isFrameworkAsWritten_iff {item : Data} {framework : FrameworkSettings}
    (made : IsFrameworkOf item framework) :
    IsFrameworkAsWritten item framework ↔ HasTextExtensions item := by
  obtain ⟨extensions, -, listed, areMade⟩ := made.fileExtensions
  constructor
  · intro asWritten others isList extension member
    have same := asWritten.sameExtensions.symm.trans isList
    exact isText_of_mem_texts (Option.some.inj same) member
  · intro areTexts
    refine { made with sameExtensions := ?_ }
    rw [areMade, map_text_wording? (areTexts extensions listed), listed]

/-- Settings without an error are used exactly as they are written when they can be read and
the extensions of the frameworks are texts, and only then; otherwise the extensions are made
texts. -/
theorem usesWritten_iff_of_check {site : Site} {entries : Entries} {result : CheckResult}
    (checked : checkEntries site entries = .ok result) (valid : result.isValid) :
    ((∃ settings, ofEntries entries = .ok settings ∧
        UsesWritten IsFrameworkAsWritten entries settings) ↔
      IsReadable entries ∧ ∀ items, entries.find? (.text "frameworks") = some (.list items) →
        ∀ item ∈ items, HasTextExtensions item) ∧
    ∀ settings, ofEntries entries = .ok settings → UsesWritten IsFrameworkOf entries settings := by
  have noErrors : result.errors = [] := List.isEmpty_iff.mp valid
  have uses (settings : Settings) (done : ofEntries entries = .ok settings) :=
    usesWritten_of_check checked noErrors done
  refine ⟨⟨?_, ?_⟩, uses⟩
  · rintro ⟨settings, done, asWritten⟩
    refine ⟨exists_ofEntries_iff.mp ⟨settings, done⟩, fun items listed => ?_⟩
    obtain ⟨_, isList, each⟩ := asWritten.frameworks
    cases listed.symm.trans isList
    have both : List.Forall₂ (fun item framework => HasTextExtensions item ∧
        IsFrameworkAsWritten item framework) items settings.frameworks :=
      each.imp fun _ _ same => ⟨(isFrameworkAsWritten_iff same.toIsFrameworkOf).mp same, same⟩
    exact (List.forall₂_and_left _ _ |>.mp both).1
  · rintro ⟨readable, areTexts⟩
    obtain ⟨settings, done⟩ := exists_ofEntries_iff.mpr readable
    have made := uses settings done
    obtain ⟨items, listed, each⟩ := made.frameworks
    have both := (List.forall₂_and_left _ _).mpr ⟨areTexts items listed, each⟩
    have asWritten : List.Forall₂ IsFrameworkAsWritten items settings.frameworks :=
      both.imp fun _ _ ⟨text, same⟩ => (isFrameworkAsWritten_iff same).mpr text
    exact ⟨settings, done, { made with frameworks := ⟨items, listed, asWritten⟩ }⟩

/-- The root of a disk without files. -/
def emptySite : Site :=
  { disk := { root := .emptyDirectory }
    users := { home := [], others := [] }
    root := { slashes := 1, parts := [] } }

/-- Settings with one framework, which has the given extensions. -/
def oneFramework (extensions : List Data) : Entries :=
  [(.text "scanPaths", .texts ["."]), (.text "excludePatterns", .texts []),
    (.text "componentPatterns", .texts ["*.vue"]), (.text "refreshInterval", .int 300),
    (.text "frameworks", .list [.map [(.text "name", .text "vue"),
      (.text "fileExtensions", .list extensions)]])]

/-- No error is found, whatever the extensions are. -/
theorem checkEntries_oneFramework (first : Data) (rest : List Data) :
    checkEntries emptySite (oneFramework (first :: rest)) = .ok {} := by
  have located : emptySite.disk.locate emptySite.root = .ok [] := by
    rw [Disk.locate, if_neg (by decide), emptySite, Disk.locateFrom]
    rfl
  have isDirectory : emptySite.disk.presence emptySite.root = .ok .directory := by
    rw [Disk.presence, if_neg (by decide), Disk.entryAt, located]
    rfl
  have isChecked : checkScanPath emptySite (.text ".") = .ok {} :=
    bind_eq_ok.mpr ⟨{ slashes := 0, parts := [] }, rfl, bind_eq_ok.mpr ⟨_, isDirectory, rfl⟩⟩
  have areChecked : checkScanPaths emptySite (some (.texts ["."])) = .ok {} :=
    bind_eq_ok.mpr ⟨[{}], by simp [isChecked, pure, Except.pure, bind, Except.bind], rfl⟩
  exact bind_eq_ok.mpr ⟨_, areChecked, bind_eq_ok.mpr ⟨_, rfl, bind_eq_ok.mpr ⟨_, rfl,
    bind_eq_ok.mpr ⟨_, rfl, rfl⟩⟩⟩⟩

/-- A framework with a text for its extension is used as it is written; one with a number
and nothing among its extensions passes the check too, but is not. -/
theorem usesWritten_oneFramework :
    (∃ settings, ofEntries (oneFramework [.text ".vue"]) = .ok settings ∧
      UsesWritten IsFrameworkAsWritten (oneFramework [.text ".vue"]) settings) ∧
    ¬(∃ settings, ofEntries (oneFramework [.text ".vue", .int 5, .null]) = .ok settings ∧
      UsesWritten IsFrameworkAsWritten (oneFramework [.text ".vue", .int 5, .null]) settings) ∧
    ∃ settings, ofEntries (oneFramework [.text ".vue", .int 5, .null]) = .ok settings ∧
      UsesWritten IsFrameworkOf (oneFramework [.text ".vue", .int 5, .null]) settings ∧
      settings.frameworks = [{ name := "vue", fileExtensions := [".vue", "5"] }] := by
  have checked := checkEntries_oneFramework (.text ".vue")
  obtain ⟨asWritten, -⟩ := usesWritten_iff_of_check (checked []) rfl
  obtain ⟨asMixed, uses⟩ := usesWritten_iff_of_check (checked [.int 5, .null]) rfl
  have readable : IsReadable (oneFramework [.text ".vue"]) :=
    exists_ofEntries_iff.mp ⟨_, rfl⟩
  have read : ofEntries (oneFramework [.text ".vue", .int 5, .null]) =
      .ok { Settings.default with
        scanPaths := ["."], excludePatterns := [], componentPatterns := ["*.vue"]
        frameworks := [{ name := "vue", fileExtensions := [".vue", "5"] }]
        refreshInterval := .real 300 } := by
    decide +kernel
  refine ⟨asWritten.mpr ⟨readable, ?_⟩, fun same => ?_, ?_⟩
  · intro items listed item member extensions filled extension isExtension
    cases listed
    cases List.mem_singleton.mp member
    cases filled
    cases List.mem_singleton.mp isExtension
    rfl
  · have areTexts := (asMixed.mp same).2 _ rfl _ List.mem_cons_self _ rfl (.int 5) (by simp)
    cases areTexts
  · exact ⟨_, read, uses _ read, rfl⟩

end Settings

end ComponentAtlas
