/-
Module: ComponentAtlas.Proofs.Settings.Updating
Purpose: What a failed change of the settings leaves behind.
Main exports:
  Fault.IsNameFault, Fault.IsNumberFault, overlay_failsOnly, ofEntries_failsOnly,
  Workspace.update_cases, Workspace.IsCoherent.update, Workspace.failed_update_spec
-/
import ComponentAtlas.Proofs.Settings.Opening

namespace ComponentAtlas

/-!
A change of the settings is made in two steps: written settings are laid over those that
are there, and what is written is then read as settings.  Each step has its own faults.
-/

/-- A framework has a name by which it cannot be found. -/
def Fault.IsNameFault (fault : Fault) : Prop := ∃ type, fault = .unusableName type

/-- A number is too large for what has to be made of it. -/
def Fault.IsNumberFault (fault : Fault) : Prop :=
  fault = .numberTooLarge ∨ fault = .numberUnwritable

theorem Fault.IsNumberFault.not_isNameFault {fault : Fault} (isNumber : fault.IsNumberFault) :
    ¬fault.IsNameFault := by
  rintro ⟨type, rfl⟩
  rcases isNumber with isLarge | isLong
  · cases isLarge
  · cases isLong

namespace Settings

theorem nameKey_failsOnly (framework : Entries) :
    FailsOnly Fault.IsNameFault (nameKey framework) := by
  unfold nameKey
  repeat' split
  all_goals first
    | exact .ok _
    | exact .error ⟨_, rfl⟩

theorem overlay_failsOnly (lower upper : Entries) :
    FailsOnly Fault.IsNameFault (overlay lower upper) := by
  unfold overlay
  dsimp only
  split
  · refine FailsOnly.bind ?_ fun _ => .ok _
    refine FailsOnly.bind ?_ fun keyed => FailsOnly.bind ?_ fun _ => .ok _
    · exact .mapM (fun entries => (nameKey_failsOnly entries).bind fun _ => .ok _) _
    · exact .foldlM (fun _ entries => (nameKey_failsOnly entries).bind fun _ => .ok _) _ keyed
  · exact .ok _

theorem asText?_failsOnly (value : Data) : FailsOnly Fault.IsNumberFault (asText? value) := by
  unfold asText?
  split
  case h_4 =>
    split
    · exact .ok _
    · exact .error (.inr rfl)
  all_goals exact .ok _

theorem asTexts_failsOnly (items : List Data) :
    FailsOnly Fault.IsNumberFault (asTexts items) := by
  induction items with
  | nil => exact .ok _
  | cons item rest ih =>
      exact (asText?_failsOnly item).bind fun _ => ih.bind fun _ => .ok _

theorem asTextList_failsOnly (value : Option Data) :
    FailsOnly Fault.IsNumberFault (asTextList value) := by
  unfold asTextList
  split
  · exact .ok _
  · exact asTexts_failsOnly _
  · exact .ok _
  · exact .ok _

theorem listOr_failsOnly (default : List String) (value : Option Data) :
    FailsOnly Fault.IsNumberFault (listOr default value) := by
  unfold listOr
  split
  · exact asTexts_failsOnly _
  · exact .ok _

theorem amountOr_failsOnly (default : Amount) (value : Option Data) :
    FailsOnly Fault.IsNumberFault (amountOr default value) := by
  refine FailsOnly.map ?_ _
  unfold asFloat?
  split
  · refine FailsOnly.map ?_ _
    unfold floatOfInt
    dsimp only
    split
    · exact .error (.inl rfl)
    · exact .ok _
  all_goals exact .ok _

theorem framework?_failsOnly (entries : Entries) :
    FailsOnly Fault.IsNumberFault (framework? entries) := by
  refine (asText?_failsOnly _).bind fun name? => ?_
  cases name? with
  | none => exact .ok _
  | some name =>
      dsimp only
      split
      · exact .ok _
      · exact (asTextList_failsOnly _).bind fun _ => (asTextList_failsOnly _).bind fun _ =>
          (asTextList_failsOnly _).bind fun _ => .ok _

theorem frameworksIn_failsOnly (items : List Data) :
    FailsOnly Fault.IsNumberFault (frameworksIn items) := by
  induction items with
  | nil => exact .ok _
  | cons item rest ih =>
      cases item with
      | map entries => exact (framework?_failsOnly entries).bind fun _ => ih.bind fun _ => .ok _
      | _ => exact ih

theorem ofEntries_failsOnly (entries : Entries) :
    FailsOnly Fault.IsNumberFault (ofEntries entries) := by
  refine FailsOnly.bind ?_ fun _ => ?_
  · unfold frameworksOr
    split
    · exact .ok _
    · exact frameworksIn_failsOnly _
    · exact .ok _
  · exact (amountOr_failsOnly _ _).bind fun _ => (amountOr_failsOnly _ _).bind fun _ =>
      (listOr_failsOnly _ _).bind fun _ => (listOr_failsOnly _ _).bind fun _ =>
      (listOr_failsOnly _ _).bind fun _ => .ok _

theorem overlay_nil (entries : Entries) : overlay entries [] = .ok entries := rfl

end Settings

namespace Workspace

open Settings

variable {workspace : Workspace} {updates : Entries} {fault : Fault}

/-- A change is refused, or only its settings cannot be read, or it is made. -/
theorem update_cases (workspace : Workspace) (updates : Entries) :
    (∃ fault, overlay workspace.entries updates = .error fault ∧
      workspace.update updates = (workspace, some fault)) ∨
    ∃ entries, overlay workspace.entries updates = .ok entries ∧
      ((∃ fault, ofEntries entries = .error fault ∧
        workspace.update updates = ({ workspace with entries }, some fault)) ∨
      ∃ settings, ofEntries entries = .ok settings ∧
        workspace.update updates = ({ workspace with entries, settings }, none)) := by
  unfold update
  cases laid : overlay workspace.entries updates with
  | error fault => exact .inl ⟨fault, rfl, rfl⟩
  | ok entries =>
      refine .inr ⟨entries, rfl, ?_⟩
      cases inUse : ofEntries entries with
      | error fault => exact .inl ⟨fault, rfl, by simp only [inUse]⟩
      | ok settings => exact .inr ⟨settings, rfl, by simp only [inUse]⟩

/-- After a change that was made, the settings in use are those that are written. -/
theorem IsCoherent.update (coherent : workspace.IsCoherent)
    (done : (workspace.update updates).2 = none) : (workspace.update updates).1.IsCoherent := by
  rcases update_cases workspace updates with ⟨fault, -, isNext⟩ |
    ⟨entries, -, ⟨fault, -, isNext⟩ | ⟨settings, inUse, isNext⟩⟩
  · rw [isNext] at done
    cases done
  · rw [isNext] at done
    cases done
  · rw [isNext]
    exact { inUse := inUse, rooted := coherent.rooted }

/-- Nothing is changed by an empty change. -/
theorem IsCoherent.update_nil (coherent : workspace.IsCoherent) :
    workspace.update [] = (workspace, none) :=
  update_of_ok (overlay_nil workspace.entries) coherent.inUse

/-- A failed change leaves the settings in use and what they say about paths.  It leaves
the whole project as it was when a framework has an unusable name.  When a number is too
large, the change stays behind among the written settings: the project is as it was only
if nothing new was written, and even an empty change fails from then on, although it does
nothing to a project whose settings were read from what is written. -/
theorem failed_update_spec (failed : (workspace.update updates).2 = some fault) :
    let next := (workspace.update updates).1
    (next.settings = workspace.settings ∧
      ∀ path, next.relativePath path = workspace.relativePath path ∧
        next.isIncluded path = workspace.isIncluded path ∧
        next.isComponentFile path = workspace.isComponentFile path) ∧
    (fault.IsNameFault ∧ overlay workspace.entries updates = .error fault ∧ next = workspace ∨
      fault.IsNumberFault ∧ overlay workspace.entries updates = .ok next.entries ∧
        next.update [] = (next, some fault) ∧
        (next = workspace ↔ next.entries = workspace.entries)) ∧
    (workspace.IsCoherent →
      workspace.update [] = (workspace, none) ∧ (next = workspace ↔ fault.IsNameFault)) := by
  intro next
  rcases update_cases workspace updates with ⟨other, refused, isNext⟩ |
    ⟨entries, laid, ⟨other, unread, isNext⟩ | ⟨settings, -, isNext⟩⟩
  · obtain rfl : other = fault := by simpa [isNext] using failed
    have same : next = workspace := congrArg Prod.fst isNext
    have isName := overlay_failsOnly _ _ _ refused
    refine ⟨by simp [same], .inl ⟨isName, refused, same⟩, fun coherent => ?_⟩
    exact ⟨coherent.update_nil, iff_of_true same isName⟩
  · obtain rfl : other = fault := by simpa [isNext] using failed
    have isRest : next = { workspace with entries } := congrArg Prod.fst isNext
    have isNumber := ofEntries_failsOnly _ _ unread
    have again : next.update [] = (next, some other) := by
      simp [isRest, Workspace.update, overlay_nil, unread]
    refine ⟨?_, .inr ⟨isNumber, by rw [laid, isRest], again, ?_⟩, fun coherent => ?_⟩
    · rw [isRest]
      exact ⟨rfl, fun path => ⟨rfl, rfl, rfl⟩⟩
    · constructor
      · exact fun same => congrArg Workspace.entries same
      · intro same
        rw [isRest] at same ⊢
        cases same
        rfl
    · refine ⟨coherent.update_nil, iff_of_false (fun same => ?_) isNumber.not_isNameFault⟩
      rw [same, coherent.update_nil] at again
      cases again
  · rw [isNext] at failed
    cases failed

/-- A project with the default settings. -/
def sampleWorkspace : Workspace :=
  { users := { home := [], others := [] }
    root := { slashes := 1, parts := [] }
    configPath := { slashes := 1, parts := [] }
    entries := defaultEntries
    settings := { Settings.default with refreshInterval := .real 300, designSystemTtl := .real 300 } }

theorem sampleWorkspace_isCoherent : sampleWorkspace.IsCoherent where
  inUse := by decide +kernel
  rooted := rfl

/-- An interval that is larger than every float. -/
def hugeInterval : Entries := [(.text "refreshInterval", .int (Decimal.tenTo 400))]

/-- After a failed change of the interval nothing can be changed any more, although the
settings in use are the old ones. -/
theorem update_hugeInterval :
    (sampleWorkspace.update hugeInterval).2 = some .numberTooLarge ∧
    sampleWorkspace.IsCoherent ∧
    (sampleWorkspace.update hugeInterval).1.settings = sampleWorkspace.settings ∧
    (sampleWorkspace.update hugeInterval).1 ≠ sampleWorkspace ∧
    ((sampleWorkspace.update hugeInterval).1.update []).2 = some .numberTooLarge ∧
    (sampleWorkspace.update []).2 = none := by
  have failed : (sampleWorkspace.update hugeInterval).2 = some .numberTooLarge := by decide +kernel
  have coherent := sampleWorkspace_isCoherent
  have isNumber : Fault.IsNumberFault .numberTooLarge := .inl rfl
  obtain ⟨⟨sameSettings, -⟩, ⟨isName, -⟩ | ⟨-, -, again, -⟩, ofCoherent⟩ := failed_update_spec failed
  · exact absurd isName isNumber.not_isNameFault
  · obtain ⟨unchanged, same⟩ := ofCoherent coherent
    refine ⟨failed, coherent, sameSettings, ?_, congrArg Prod.snd again, congrArg Prod.snd unchanged⟩
    exact fun isSame => isNumber.not_isNameFault (same.mp isSame)

end Workspace

end ComponentAtlas
