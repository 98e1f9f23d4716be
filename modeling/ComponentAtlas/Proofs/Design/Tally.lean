/-
Module: ComponentAtlas.Proofs.Design.Tally
Purpose: What the tables hold that are filled use by use: one entry for each key, in the order of
  the first uses, made of all uses of the key.
Main exports:
  changeOrPut, foldl_changeOrPut, tokenUsages_eq, colorTokens_eq, foldl_countOne_eq
-/
import ComponentAtlas.Category.Detector
import ComponentAtlas.Design.Token
import ComponentAtlas.Proofs.Component.Imports

namespace ComponentAtlas.Design

/-!
Colors, token values and names are counted in tables of different entries, but in one way: the
entry of a key is changed, and where there is none one is put behind the others.
-/

section

variable {ι κ β : Type} [DecidableEq κ]

/-- Change the entry of a key, or put a new one behind the others. -/
def changeOrPut (key : β → κ) (own : κ) (new : β) (change : β → β) : List β → List β
  | [] => [new]
  | entry :: entries =>
    if key entry = own then change entry :: entries
    else entry :: changeOrPut key own new change entries

variable {key : β → κ} {own : κ} {new : β} {change : β → β} {entries : List β}

theorem changeOrPut_of_notMem (absent : ∀ entry ∈ entries, key entry ≠ own) :
    changeOrPut key own new change entries = entries ++ [new] := by
  induction entries with
  | nil => rfl
  | cons entry entries ih =>
      obtain ⟨differs, later⟩ := List.forall_mem_cons.mp absent
      rw [changeOrPut, if_neg differs, ih later, List.cons_append]

theorem changeOrPut_map {keys : List κ} {build : κ → β} (keyed : ∀ k, key (build k) = k)
    (nodup : keys.Nodup) (member : own ∈ keys) :
    changeOrPut key own new change (keys.map build) =
      keys.map fun k => if k = own then change (build k) else build k := by
  induction keys with
  | nil => cases member
  | cons k keys ih =>
      obtain ⟨notLater, nodup⟩ := List.nodup_cons.mp nodup
      rw [List.map_cons, List.map_cons, changeOrPut, keyed]
      by_cases isOwn : k = own
      · subst isOwn
        rw [if_pos rfl, if_pos rfl]
        congr 1
        apply List.map_congr_left
        intro other isOther
        have differs : other ≠ k := fun same => notLater (same ▸ isOther)
        rw [if_neg differs]
      · have later : own ∈ keys := (List.mem_cons.mp member).resolve_left fun same =>
          isOwn same.symm
        rw [if_neg isOwn, if_neg isOwn, ih nodup later]

/-- A key has uses when it is the key of one. -/
theorem filter_eq_nil_iff_notMem {keyOf : ι → κ} {uses : List ι} {k : κ} :
    uses.filter (keyOf · = k) = [] ↔ k ∉ distinct (uses.map keyOf) := by
  rw [mem_distinct, List.mem_map, List.filter_eq_nil_iff]
  simp only [decide_eq_true_eq, not_exists, not_and]

/-- A table that is filled use by use has an entry for each key, in the order of the first uses;
`build` makes the entry of a key from all uses of that key. -/
theorem foldl_changeOrPut (keyOf : ι → κ) (build : κ → List ι → β) {change : ι → β → β}
    {step : List β → ι → List β}
    (steps : ∀ entries use, step entries use =
      changeOrPut key (keyOf use) (build (keyOf use) [use]) (change use) entries)
    (keyed : ∀ k uses, key (build k uses) = k)
    (more : ∀ use uses, uses ≠ [] →
      build (keyOf use) (uses ++ [use]) = change use (build (keyOf use) uses))
    (uses : List ι) :
    uses.foldl step [] =
      (distinct (uses.map keyOf)).map fun k => build k (uses.filter (keyOf · = k)) := by
  -- The last use changes the entry of its own key, and no other key has it among its uses.
  induction uses using List.reverseRecOn with
  | nil => rfl
  | append_singleton uses use ih =>
      have others : ∀ k, k ≠ keyOf use →
          (uses ++ [use]).filter (keyOf · = k) = uses.filter (keyOf · = k) := by
        intro k differs
        simp [List.filter_append, differs.symm]
      have ownUses : (uses ++ [use]).filter (keyOf · = keyOf use) =
          uses.filter (keyOf · = keyOf use) ++ [use] := by
        simp [List.filter_append]
      rw [List.foldl_append, List.foldl_cons, List.foldl_nil, steps, ih, List.map_append,
        List.map_singleton, distinct_append_singleton]
      split
      case isTrue known =>
        have notNew : uses.filter (keyOf · = keyOf use) ≠ [] := fun isNew =>
          filter_eq_nil_iff_notMem.mp isNew known
        rw [changeOrPut_map (fun k => keyed k _) (nodup_distinct _) known]
        apply List.map_congr_left
        intro k _
        by_cases isOwn : k = keyOf use
        · rw [if_pos isOwn, isOwn, ownUses, more use _ notNew]
        · rw [if_neg isOwn, others k isOwn]
      case isFalse unknown =>
        have absent : ∀ k ∈ distinct (uses.map keyOf), k ≠ keyOf use := by
          intro k member same
          exact unknown (same ▸ member)
        rw [changeOrPut_of_notMem, List.map_append, List.map_singleton, ownUses,
          filter_eq_nil_iff_notMem.mpr unknown, List.nil_append]
        · congr 1
          apply List.map_congr_left
          intro k member
          rw [others k (absent k member)]
        · rw [List.forall_mem_map]
          intro k member
          rw [keyed]
          exact absent k member

end

/-!
The three tables.
-/

theorem addUse_eq (tokens : List TokenUsage) (value : String) :
    addUse tokens value = changeOrPut TokenUsage.value value { value, usage := 1 }
      (fun token => { token with usage := token.usage + 1 }) tokens := by
  induction tokens with
  | nil => rfl
  | cons token tokens ih => rw [addUse, changeOrPut, ih]

/-- Each value stands once, with the number of its uses. -/
theorem tokenUsages_eq (uses : List String) :
    tokenUsages uses =
      (distinct uses).map fun value => { value, usage := uses.count value } := by
  have table := foldl_changeOrPut id (fun value uses => TokenUsage.mk value uses.length) addUse_eq
    (fun _ _ => rfl) (fun _ _ _ => by simp) uses
  rw [List.map_id] at table
  rw [tokenUsages, table]
  apply List.map_congr_left
  intro value _
  rw [List.count_eq_length_filter]
  rfl

theorem addColor_eq (tokens : List ColorToken) (use : String × String) :
    addColor tokens use =
      changeOrPut ColorToken.value use.1 { value := use.1, usage := 1, contexts := [use.2] }
        (fun token =>
          { token with
            usage := token.usage + 1
            contexts :=
              if use.2 ∈ token.contexts then token.contexts else token.contexts ++ [use.2] })
        tokens := by
  induction tokens with
  | nil => rfl
  | cons token tokens ih => rw [addColor, changeOrPut, ih]

/-- Each color stands once, with the number of its uses and the distinct properties that used
it. -/
theorem colorTokens_eq (uses : List (String × String)) :
    colorTokens uses =
      (distinct (uses.map (·.1))).map fun value =>
        { value
          usage := (uses.map (·.1)).count value
          contexts := distinct ((uses.filter (·.1 = value)).map (·.2)) } := by
  have table := foldl_changeOrPut Prod.fst
    (fun value uses => ColorToken.mk value uses.length (distinct (uses.map Prod.snd))) addColor_eq
    (fun _ _ => rfl)
    (fun use uses _ => by
      rw [List.length_append, List.map_append, List.map_singleton, distinct_append_singleton]
      rfl)
    uses
  rw [colorTokens, table]
  apply List.map_congr_left
  intro value _
  rw [List.count_eq_length_filter, List.filter_map, List.length_map]
  rfl

theorem countOne_eq (counts : List (String × Nat)) (name : String) :
    Category.countOne counts name =
      changeOrPut Prod.fst name (name, 1) (fun entry => (entry.1, entry.2 + 1)) counts := by
  induction counts with
  | nil => rfl
  | cons entry counts ih =>
      rw [Category.countOne, changeOrPut, ih]

/-- Each name stands once, with the number of its occurrences. -/
theorem foldl_countOne_eq (names : List String) :
    names.foldl Category.countOne [] =
      (distinct names).map fun name => (name, names.count name) := by
  have table := foldl_changeOrPut id (fun name uses => (name, uses.length)) countOne_eq
    (fun _ _ => rfl) (fun _ _ _ => by simp) names
  rw [List.map_id] at table
  rw [table]
  apply List.map_congr_left
  intro name _
  rw [List.count_eq_length_filter]
  rfl

end ComponentAtlas.Design
