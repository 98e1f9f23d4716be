/-
Module: ComponentAtlas.Proofs.Settings.Fallback
Purpose: Which written settings can be read, and which fields keep their default.
Main exports:
  isWritable, wording?, IsReadable, exists_ofEntries_iff, FieldKind, FieldKind.takes,
  fieldKinds, ofEntries_falls_back
-/
import ComponentAtlas.Proofs.Settings.Updating

namespace ComponentAtlas

namespace Settings

open ComponentAtlas.Decimal ComponentAtlas.Text

/-!
A value becomes text unless it is a whole number with too many digits, and a number becomes
a float unless it is larger than all of them.  Settings are read when no value stands in the
way where it is needed.
-/

/-- The value is no whole number with too many digits to be written. -/
def isWritable : Data → Bool
  | .int value => value.natAbs < tenTo maxIntDigits
  | _ => true

/-- The words for a scalar, however many digits it has. -/
def wording? : Data → Option String
  | .text value => some value
  | .bool value => some (boolWord value)
  | .float value => some (plainStyle.render value)
  | .int value => some (toString value)
  | _ => none

theorem asText?_eq_ok {value : Data} {text? : Option String} :
    asText? value = .ok text? ↔ isWritable value ∧ wording? value = text? := by
  cases value with
  | int value =>
      simp only [asText?, isWritable, wording?, decide_eq_true_eq]
      split
      · rename_i isShort
        simp [isShort]
      · rename_i isLong
        simp [isLong]
  | _ => simp [asText?, isWritable, wording?]

theorem asTexts_eq_ok {items : List Data} {texts : List String} :
    asTexts items = .ok texts ↔
      (∀ item ∈ items, isWritable item) ∧ items.filterMap wording? = texts := by
  induction items generalizing texts with
  | nil => simp [asTexts]
  | cons item rest ih =>
      have isCons (others : List String) : (item :: rest).filterMap wording? =
          (wording? item).toList ++ rest.filterMap wording? := by
        rw [List.filterMap_cons]
        cases wording? item <;> rfl
      simp only [asTexts, bind_eq_ok, asText?_eq_ok, ih, isCons texts, List.mem_cons,
        forall_eq_or_imp, pure, Except.pure, Except.ok.injEq]
      constructor
      · rintro ⟨_, ⟨isFirst, rfl⟩, _, ⟨areOthers, rfl⟩, same⟩
        exact ⟨⟨isFirst, areOthers⟩, same⟩
      · rintro ⟨⟨isFirst, areOthers⟩, same⟩
        exact ⟨_, ⟨isFirst, rfl⟩, _, ⟨areOthers, rfl⟩, same⟩

/-- Where a list is written, its items can be made texts. -/
def HasTexts (value : Option Data) : Prop :=
  ∀ items, value = some (.list items) → ∀ item ∈ items, isWritable item

/-- Where a whole number is written, it has a float next to it. -/
def HasFloat (value : Option Data) : Prop :=
  ∀ number, value = some (.int number) → (Float.ofInt number).isInf = false

theorem exists_asTexts_iff {items : List Data} :
    (∃ texts, asTexts items = .ok texts) ↔ ∀ item ∈ items, isWritable item := by
  simp [asTexts_eq_ok]

theorem exists_listOr_iff {default : List String} {value : Option Data} :
    (∃ texts, listOr default value = .ok texts) ↔ HasTexts value := by
  unfold listOr HasTexts
  split
  · simp [exists_asTexts_iff]
  · rename_i noList
    simpa using fun items isList => absurd isList (noList items)

theorem exists_asTextList_iff {value : Option Data} :
    (∃ texts, asTextList value = .ok texts) ↔ HasTexts value := by
  unfold asTextList HasTexts
  split
  · simp
  · simp [exists_asTexts_iff]
  · simp
  · rename_i noText noList noForeign
    simpa using fun items isList => absurd isList (noList items)

theorem exists_amountOr_iff {default : Amount} {value : Option Data} :
    (∃ amount, amountOr default value = .ok amount) ↔ HasFloat value := by
  unfold amountOr asFloat? HasFloat
  split
  · rename_i number
    cases isHuge : (Float.ofInt number).isInf <;> simp [floatOfInt, isHuge, Except.map]
  · simp [Except.map]
  · simp [Except.map]
  · rename_i noInt _ _
    simpa [Except.map] using fun number isInt => absurd isInt (noInt number)

/-- Two pieces of work are done when the first one can be done, and then the second. -/
theorem exists_bind_ok {α β : Type} {first : Except Fault α} {next : α → Except Fault β} :
    (∃ done, (first >>= next) = .ok done) ↔
      ∃ value, first = .ok value ∧ ∃ done, next value = .ok done := by
  simp only [bind_eq_ok]
  exact ⟨fun ⟨done, value, isFirst, isNext⟩ => ⟨value, isFirst, done, isNext⟩,
    fun ⟨value, isFirst, done, isNext⟩ => ⟨done, value, isFirst, isNext⟩⟩

theorem exists_pure_ok {α : Type} (value : α) :
    (∃ done, (pure value : Except Fault α) = .ok done) ↔ True :=
  iff_true_intro ⟨value, rfl⟩

/-- The lists of a framework. -/
def listNames : List String := ["fileExtensions", "componentPatterns", "stylePatterns"]

/-- A written framework can be read: its name can be made a text, and when there is a name,
so can be what its lists hold. -/
structure IsReadableFramework (entries : Entries) : Prop where
  name : ∀ value, entries.find? (.text "name") = some value → isWritable value
  lists : ∀ name, (entries.find? (.text "name")).bind wording? = some name → name ≠ "" →
    ∀ key ∈ listNames, HasTexts (entries.find? (.text key))

theorem exists_framework?_iff {entries : Entries} :
    (∃ found, framework? entries = .ok found) ↔ IsReadableFramework entries := by
  have isName (name? : Option String) :
      asText? ((entries.find? (.text "name")).getD .null) = .ok name? ↔
        (∀ value, entries.find? (.text "name") = some value → isWritable value) ∧
          (entries.find? (.text "name")).bind wording? = name? := by
    rw [asText?_eq_ok]
    cases entries.find? (.text "name") <;> simp [isWritable, wording?]
  unfold framework?
  simp only [exists_bind_ok, isName]
  constructor
  · rintro ⟨_, ⟨writable, rfl⟩, made⟩
    refine ⟨writable, fun name named filled => ?_⟩
    have notEmpty : ¬name.isEmpty := by simpa using filled
    simp only [named, if_neg notEmpty, exists_bind_ok, exists_pure_ok, and_true, exists_and_right,
      exists_asTextList_iff] at made
    simpa [listNames] using made
  · rintro ⟨writable, lists⟩
    refine ⟨_, ⟨writable, rfl⟩, ?_⟩
    cases named : (entries.find? (.text "name")).bind wording? with
    | none => exact ⟨none, rfl⟩
    | some name =>
        dsimp only
        split
        · exact ⟨none, rfl⟩
        · rename_i notEmpty
          have areLists := lists name named (by simpa using notEmpty)
          simp only [exists_bind_ok, exists_pure_ok, and_true, exists_and_right,
            exists_asTextList_iff]
          simpa [listNames] using areLists

theorem exists_frameworksIn_iff {items : List Data} :
    (∃ found, frameworksIn items = .ok found) ↔
      ∀ entries, .map entries ∈ items → IsReadableFramework entries := by
  induction items with
  | nil => simp [frameworksIn]
  | cons item rest ih =>
      cases item with
      | map entries =>
          simp only [frameworksIn, exists_bind_ok, exists_pure_ok, and_true, exists_and_right,
            exists_framework?_iff, ih, List.mem_cons, Data.map.injEq, forall_eq_or_imp]
      | _ => simp [frameworksIn, ih]

/-- Written settings can be read: no number is in the way that is too large for a float, or
too long for a text. -/
structure IsReadable (entries : Entries) : Prop where
  frameworks : ∀ items, entries.find? (.text "frameworks") = some (.list items) →
    ∀ framework, .map framework ∈ items → IsReadableFramework framework
  refreshInterval : HasFloat (entries.find? (.text "refreshInterval"))
  designSystemTtl : HasFloat (entries.find? (.text "designSystemTtl"))
  scanPaths : HasTexts (entries.find? (.text "scanPaths"))
  excludePatterns : HasTexts (entries.find? (.text "excludePatterns"))
  componentPatterns : HasTexts (entries.find? (.text "componentPatterns"))

theorem exists_frameworksOr_iff {default : List FrameworkSettings} {value : Option Data} :
    (∃ found, frameworksOr default value = .ok found) ↔
      ∀ items, value = some (.list items) →
        ∀ framework, .map framework ∈ items → IsReadableFramework framework := by
  unfold frameworksOr
  split
  · simp
  · simp [exists_frameworksIn_iff]
  · rename_i noList
    simpa using fun items isList => absurd isList (noList items)

theorem exists_ofEntries_iff {entries : Entries} :
    (∃ settings, ofEntries entries = .ok settings) ↔ IsReadable entries := by
  simp only [ofEntries, exists_bind_ok, exists_pure_ok, and_true, exists_and_right,
    exists_frameworksOr_iff, exists_amountOr_iff, exists_listOr_iff]
  constructor
  · rintro ⟨areFrameworks, isInterval, isTtl, areScanPaths, areExcluded, arePatterns⟩
    exact ⟨areFrameworks, isInterval, isTtl, areScanPaths, areExcluded, arePatterns⟩
  · rintro ⟨areFrameworks, isInterval, isTtl, areScanPaths, areExcluded, arePatterns⟩
    exact ⟨areFrameworks, isInterval, isTtl, areScanPaths, areExcluded, arePatterns⟩

/-!
What is written for a field may be of another kind than the field.
-/

/-- What a field is made of. -/
inductive FieldKind where
  | texts
  | switch
  | whole
  | amount
deriving DecidableEq

/-- A value can be made a field of a kind: it is of the kind, or it is a text that can be read
so. -/
def FieldKind.takes : FieldKind → Data → Bool
  | .texts, .list _ => true
  | .switch, .bool _ => true
  | .switch, .text word =>
    ["true", "yes", "1", "false", "no", "0"].contains (String.ofList (lower (trim word.toList)))
  | .whole, .int _ => true
  | .whole, .text digits => (readInt? digits.toList).isSome
  | .amount, .int _ => true
  | .amount, .float _ => true
  | .amount, .text digits => (readFloat? digits.toList).isSome
  | _, _ => false

/-- Something is written from which a field of a kind can be made. -/
def FieldKind.isWritten (kind : FieldKind) (value : Option Data) : Bool := value.any kind.takes

/-- The fields of settings other than the frameworks. -/
def fieldKinds : List (String × FieldKind) :=
  [("scanPaths", .texts), ("excludePatterns", .texts), ("componentPatterns", .texts),
    ("cacheEnabled", .switch), ("autoRefresh", .switch), ("refreshInterval", .amount),
    ("cacheMaxSize", .whole), ("designSystemTtl", .amount)]

theorem listOr_of_not_isWritten {default : List String} {value : Option Data}
    (unfit : FieldKind.texts.isWritten value = false) : listOr default value = .ok default := by
  unfold listOr
  split
  · cases unfit
  · rfl

theorem asBool?_of_not_isWritten {value : Option Data}
    (unfit : FieldKind.switch.isWritten value = false) : asBool? value = none := by
  unfold asBool?
  split
  · cases unfit
  · rename_i word
    simp only [FieldKind.isWritten, FieldKind.takes, Option.any_some, List.contains_cons,
      List.contains_nil, Bool.or_eq_false_iff, beq_eq_false_iff_ne] at unfit
    simp [unfit]
  · rfl

theorem asInt?_of_not_isWritten {value : Option Data}
    (unfit : FieldKind.whole.isWritten value = false) : asInt? value = none := by
  unfold asInt?
  split
  · cases unfit
  · simpa [FieldKind.isWritten, FieldKind.takes] using unfit
  · rfl

theorem amountOr_of_not_isWritten {default : Amount} {value : Option Data}
    (unfit : FieldKind.amount.isWritten value = false) : amountOr default value = .ok default := by
  unfold amountOr asFloat?
  split
  · cases unfit
  · cases unfit
  · rename_i digits
    have unread : readFloat? digits.toList = none := by
      simpa [FieldKind.isWritten, FieldKind.takes] using unfit
    rw [unread]
    rfl
  · rfl

/-- Settings are read unless a number is in the way.  A field keeps its default when nothing
is written that it could be made of; but there are no frameworks when something other than a
list is written for them. -/
theorem ofEntries_falls_back (entries : Entries) :
    ((∃ settings, ofEntries entries = .ok settings) ↔ IsReadable entries) ∧
    (∀ fault, ofEntries entries = .error fault → fault.IsNumberFault) ∧
    ∀ settings, ofEntries entries = .ok settings →
      (∀ field ∈ fieldKinds, field.2.isWritten (entries.find? (.text field.1)) = false →
        settings.data.field? field.1 = Settings.default.data.field? field.1) ∧
      (entries.find? (.text "frameworks") = none →
        settings.frameworks = Settings.default.frameworks) ∧
      ∀ value, entries.find? (.text "frameworks") = some value → (∀ items, value ≠ .list items) →
        settings.frameworks = [] := by
  refine ⟨exists_ofEntries_iff, ofEntries_failsOnly entries, fun settings done => ?_⟩
  obtain ⟨areFrameworks, isInterval, isTtl, areScanPaths, areExcluded, arePatterns, isAuto,
    isEnabled, isSize⟩ := ofEntries_spec done
  dsimp only at *
  refine ⟨fun field isField unfit => ?_, fun missing => ?_, fun value found noList => ?_⟩
  · simp only [fieldKinds, List.mem_cons, List.not_mem_nil, or_false] at isField
    rcases isField with rfl | rfl | rfl | rfl | rfl | rfl | rfl | rfl
    · rw [listOr_of_not_isWritten unfit] at areScanPaths
      exact congrArg (fun paths => some (Data.texts paths)) (Except.ok.inj areScanPaths).symm
    · rw [listOr_of_not_isWritten unfit] at areExcluded
      exact congrArg (fun patterns => some (Data.texts patterns)) (Except.ok.inj areExcluded).symm
    · rw [listOr_of_not_isWritten unfit] at arePatterns
      exact congrArg (fun patterns => some (Data.texts patterns)) (Except.ok.inj arePatterns).symm
    · rw [asBool?_of_not_isWritten unfit] at isEnabled
      exact congrArg (fun isOn => some (Data.bool isOn)) isEnabled.symm
    · rw [asBool?_of_not_isWritten unfit] at isAuto
      exact congrArg (fun isOn => some (Data.bool isOn)) isAuto.symm
    · rw [amountOr_of_not_isWritten unfit] at isInterval
      exact congrArg (fun amount => some (Amount.data amount)) (Except.ok.inj isInterval).symm
    · rw [asInt?_of_not_isWritten unfit] at isSize
      exact congrArg (fun size => some (Data.int size)) isSize.symm
    · rw [amountOr_of_not_isWritten unfit] at isTtl
      exact congrArg (fun amount => some (Amount.data amount)) (Except.ok.inj isTtl).symm
  · rw [missing] at areFrameworks
    exact (Except.ok.inj areFrameworks).symm
  · rw [found] at areFrameworks
    cases value with
    | list items => exact absurd rfl (noList items)
    | _ => exact (Except.ok.inj areFrameworks).symm

/-- A value of the wrong kind for every field. -/
def unfitEntries : Entries :=
  [(.text "scanPaths", .text "src"), (.text "excludePatterns", .null),
    (.text "frameworks", .text "vue"), (.text "componentPatterns", .map []),
    (.text "cacheEnabled", .int 1), (.text "autoRefresh", .text "maybe"),
    (.text "refreshInterval", .text "soon"), (.text "cacheMaxSize", .float 1.5),
    (.text "designSystemTtl", .bool true)]

/-- Values of the wrong kind leave the defaults, except that there are no frameworks, and an
interval that is larger than every float cannot be read at all. -/
theorem ofEntries_unfitEntries :
    (∃ settings, ofEntries unfitEntries = .ok settings ∧
      (∀ field ∈ fieldKinds, settings.data.field? field.1 = Settings.default.data.field? field.1) ∧
      settings.frameworks = [] ∧ settings.frameworks ≠ Settings.default.frameworks) ∧
    ¬∃ settings, ofEntries Workspace.hugeInterval = .ok settings := by
  obtain ⟨-, -, fallsBack⟩ := ofEntries_falls_back unfitEntries
  have done : ofEntries unfitEntries = .ok { Settings.default with frameworks := [] } := by rfl
  obtain ⟨fields, -, noList⟩ := fallsBack _ done
  refine ⟨⟨_, done, fun field isField => fields field isField ?_, ?_, by decide⟩, ?_⟩
  · revert field
    decide +kernel
  · exact noList (.text "vue") rfl (by simp)
  · rw [(ofEntries_falls_back Workspace.hugeInterval).1]
    intro readable
    have isHuge : (Float.ofInt (tenTo 400)).isInf = true := by decide +kernel
    have finite := readable.refreshInterval (tenTo 400) rfl
    rw [isHuge] at finite
    cases finite

end Settings

end ComponentAtlas
