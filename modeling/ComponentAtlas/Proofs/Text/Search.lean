/-
Module: ComponentAtlas.Proofs.Text.Search
Purpose: Where the hits of a recogniser lie in a text.
Main exports:
  mem_hits, hitsFrom_eq_nil, hitsFrom_append, hitsFrom_eq_singleton, forall_append_iff,
  exists_append_iff, forall_append_cons_iff
-/
import ComponentAtlas.Text.Search

namespace ComponentAtlas.Text

variable {α : Type} {recognise : Recogniser α}

/-- The last character of what was passed, or the one before it all. -/
def lastOf (lead : List Char) (before : Option Char) : Option Char := lead.getLast?.or before

@[simp] theorem lastOf_nil (before : Option Char) : lastOf [] before = before := rfl

theorem lastOf_cons (c : Char) (lead : List Char) (before : Option Char) :
    lastOf (c :: lead) before = lastOf lead (some c) := by
  cases lead with
  | nil => rfl
  | cons d more => simp [lastOf, List.getLast?_eq_some_getLast (List.cons_ne_nil d more)]

theorem lastOf_append (lead other : List Char) (before : Option Char) :
    lastOf (lead ++ other) before = lastOf other (lastOf lead before) := by
  simp [lastOf, List.getLast?_append, Option.or_assoc]

@[simp] theorem lastOf_none (lead : List Char) : lastOf lead none = lead.getLast? := by
  simp [lastOf]

theorem mem_hitsFrom {before : Option Char} {offset skip : Nat} {text : List Char}
    {found : Nat × α} (hit : found ∈ hitsFrom recognise before offset skip text) :
    ∃ lead rest size, text = lead ++ rest ∧ found.1 = offset + lead.length ∧
      recognise (lastOf lead before) rest = some (found.2, size) := by
  induction text generalizing before offset skip with
  | nil => cases hit
  | cons c text ih =>
      -- A hit behind the first character is a hit of the rest.
      have later : ∀ {skip : Nat}, found ∈ hitsFrom recognise (some c) (offset + 1) skip text →
          ∃ lead rest size, c :: text = lead ++ rest ∧ found.1 = offset + lead.length ∧
            recognise (lastOf lead before) rest = some (found.2, size) := by
        intro skip hit
        obtain ⟨lead, rest, size, rfl, place, seen⟩ := ih hit
        refine ⟨c :: lead, rest, size, rfl, ?_, ?_⟩
        · rw [place, List.length_cons]
          omega
        · rw [lastOf_cons]
          exact seen
      cases skip with
      | succ more => exact later hit
      | zero =>
          cases seen : recognise before (c :: text) with
          | none =>
              simp only [hitsFrom, seen] at hit
              exact later hit
          | some value =>
              simp only [hitsFrom, seen, List.mem_cons] at hit
              rcases hit with rfl | hit
              · exact ⟨[], c :: text, value.2, rfl, rfl, seen⟩
              · exact later hit

/-- A hit lies where the recogniser succeeds. -/
theorem mem_hits {text : List Char} {found : Nat × α} (hit : found ∈ hits recognise text) :
    ∃ lead rest size, text = lead ++ rest ∧ found.1 = lead.length ∧
      recognise lead.getLast? rest = some (found.2, size) := by
  simpa using mem_hitsFrom hit

/-- The recogniser succeeds at no place of the text. -/
def Nowhere (recognise : Recogniser α) (before : Option Char) (text : List Char) : Prop :=
  ∀ lead rest, text = lead ++ rest → recognise (lastOf lead before) rest = none

theorem Nowhere.tail {before : Option Char} {c : Char} {text : List Char}
    (nowhere : Nowhere recognise before (c :: text)) : Nowhere recognise (some c) text := by
  rintro lead rest rfl
  rw [← lastOf_cons c lead before]
  exact nowhere (c :: lead) rest rfl

theorem hitsFrom_eq_nil {before : Option Char} {offset skip : Nat} {text : List Char}
    (nowhere : Nowhere recognise before text) :
    hitsFrom recognise before offset skip text = [] := by
  induction text generalizing before offset skip with
  | nil => rfl
  | cons c text ih =>
      cases skip with
      | succ more => exact ih nowhere.tail
      | zero =>
          have fails : recognise before (c :: text) = none := nowhere [] _ rfl
          simp only [hitsFrom, fails, ih nowhere.tail]

/-!
The search goes along a text: over places where nothing is found, and over what was found.
-/

theorem hitsFrom_append {before : Option Char} {offset : Nat} {lead rest : List Char}
    (none : ∀ other c after, lead = other ++ c :: after →
      recognise (lastOf other before) (c :: after ++ rest) = none) :
    hitsFrom recognise before offset 0 (lead ++ rest) =
      hitsFrom recognise (lastOf lead before) (offset + lead.length) 0 rest := by
  induction lead generalizing before offset with
  | nil => rfl
  | cons c lead ih =>
      have fails : recognise before (c :: (lead ++ rest)) = Option.none := none [] c lead rfl
      have later := @ih (some c) (offset + 1) fun other d after same => by
        rw [← lastOf_cons c other before]
        exact none (c :: other) d after (congrArg (c :: ·) same)
      simp only [List.cons_append, hitsFrom, fails, later, lastOf_cons, List.length_cons]
      congr 1
      omega

theorem hitsFrom_skip {before : Option Char} {offset : Nat} (taken rest : List Char) :
    hitsFrom recognise before offset taken.length (taken ++ rest) =
      hitsFrom recognise (lastOf taken before) (offset + taken.length) 0 rest := by
  induction taken generalizing before offset with
  | nil => rfl
  | cons c taken ih =>
      rw [List.cons_append, List.length_cons, hitsFrom, ih, lastOf_cons]
      congr 1
      omega

theorem hitsFrom_hit {before : Option Char} {offset : Nat} {taken rest : List Char} {value : α}
    (ne_nil : taken ≠ [])
    (seen : recognise before (taken ++ rest) = some (value, taken.length)) :
    hitsFrom recognise before offset 0 (taken ++ rest) =
      (offset, value) ::
        hitsFrom recognise (lastOf taken before) (offset + taken.length) 0 rest := by
  cases taken with
  | nil => exact absurd rfl ne_nil
  | cons c taken =>
      rw [List.cons_append] at seen
      have later := @hitsFrom_skip α recognise (some c) (offset + 1) taken rest
      simp only [List.cons_append, hitsFrom, seen, List.length_cons, Nat.add_sub_cancel, later,
        lastOf_cons]
      congr 2
      omega

/-- A recogniser that succeeds at one place only, and takes something there, has one
hit. -/
theorem hitsFrom_eq_singleton {before : Option Char} {offset size : Nat}
    {lead rest : List Char} {value : α} (ne_nil : rest ≠ [])
    (seen : recognise (lastOf lead before) rest = some (value, size))
    (only : ∀ other after, lead ++ rest = other ++ after → other ≠ lead →
      recognise (lastOf other before) after = none) :
    hitsFrom recognise before offset 0 (lead ++ rest) = [(offset + lead.length, value)] := by
  have passed : ∀ other c after, lead = other ++ c :: after →
      recognise (lastOf other before) (c :: after ++ rest) = none := by
    rintro other c after rfl
    exact only other (c :: after ++ rest) (by simp) (by simp)
  rw [hitsFrom_append passed]
  cases rest with
  | nil => exact absurd rfl ne_nil
  | cons c rest =>
      have nowhere : Nowhere recognise (some c) rest := by
        rintro other after rfl
        have later := only (lead ++ c :: other) after (by simp) (by simp)
        rwa [lastOf_append, lastOf_cons] at later
      simp only [hitsFrom, seen, hitsFrom_eq_nil nowhere]

theorem after?_append (start rest : List Char) : after? start (start ++ rest) = some rest := by
  simp [after?]

theorem after?_eq_some {start text rest : List Char} :
    after? start text = some rest ↔ text = start ++ rest := by
  refine ⟨fun isAfter => ?_, fun divided => divided ▸ after?_append start rest⟩
  rw [after?, Option.ite_none_right_eq_some, List.isPrefixOf_iff_prefix] at isAfter
  obtain ⟨⟨behind, rfl⟩, isRest⟩ := isAfter
  rw [List.drop_left] at isRest
  rw [Option.some.inj isRest]

theorem before?_eq_some {finish text lead : List Char} :
    before? finish text = some lead ↔ text = lead ++ finish := by
  rw [before?, Option.ite_none_right_eq_some, List.isSuffixOf_iff_suffix]
  constructor
  · rintro ⟨⟨front, rfl⟩, isLead⟩
    simp at isLead
    rw [isLead]
  · rintro rfl
    simp

/-- A test of all members of a list, one by one. -/
theorem forall_mem_of_all {β : Type} {p : β → Prop} [DecidablePred p] {list : List β}
    (all : list.all fun b => decide (p b)) : ∀ b ∈ list, p b :=
  fun b member => of_decide_eq_true (List.all_eq_true.mp all b member)

/-- The ways to divide a list are its places. -/
theorem forall_append_iff {β : Type} {list : List β} {holds : List β → List β → Prop} :
    (∀ lead rest, list = lead ++ rest → holds lead rest) ↔
      ∀ place ∈ List.range (list.length + 1), holds (list.take place) (list.drop place) := by
  refine ⟨fun all place _ => all _ _ (List.take_append_drop place list).symm, ?_⟩
  rintro all lead rest rfl
  have inside : lead.length < (lead ++ rest).length + 1 := by
    rw [List.length_append]
    omega
  simpa using all lead.length (List.mem_range.mpr inside)

theorem exists_append_iff {β : Type} {list : List β} {holds : List β → List β → Prop} :
    (∃ lead rest, list = lead ++ rest ∧ holds lead rest) ↔
      ∃ place ∈ List.range (list.length + 1), holds (list.take place) (list.drop place) := by
  constructor
  · rintro ⟨lead, rest, rfl, held⟩
    have inside : lead.length < (lead ++ rest).length + 1 := by
      rw [List.length_append]
      omega
    exact ⟨lead.length, List.mem_range.mpr inside, by simpa using held⟩
  · rintro ⟨place, -, held⟩
    exact ⟨_, _, (List.take_append_drop place list).symm, held⟩

/-- The items of a list are found at its places, each with what stands on both sides. -/
theorem forall_append_cons_iff {β : Type} {list : List β} {holds : List β → β → List β → Prop} :
    (∀ lead item rest, list = lead ++ item :: rest → holds lead item rest) ↔
      ∀ place : Fin list.length, holds (list.take place) list[place] (list.drop (place + 1)) := by
  refine ⟨fun all place => all _ _ _ ?_, ?_⟩
  · rw [Fin.getElem_fin, ← List.drop_eq_getElem_cons, List.take_append_drop]
  · rintro all lead item rest rfl
    have inside : lead.length < (lead ++ item :: rest).length := by
      rw [List.length_append, List.length_cons]
      omega
    simpa using all ⟨lead.length, inside⟩

section

variable {β : Type} (list : List β)

instance decidableForallAppend (holds : List β → List β → Prop)
    [∀ lead rest, Decidable (holds lead rest)] :
    Decidable (∀ lead rest, list = lead ++ rest → holds lead rest) :=
  decidable_of_iff _ forall_append_iff.symm

instance decidableExistsAppend (holds : List β → List β → Prop)
    [∀ lead rest, Decidable (holds lead rest)] :
    Decidable (∃ lead rest, list = lead ++ rest ∧ holds lead rest) :=
  decidable_of_iff _ exists_append_iff.symm

instance decidableForallAppendCons (holds : List β → β → List β → Prop)
    [∀ lead item rest, Decidable (holds lead item rest)] :
    Decidable (∀ lead item rest, list = lead ++ item :: rest → holds lead item rest) :=
  @decidable_of_iff _ _ forall_append_cons_iff.symm (Nat.decidableForallFin _)

end

end ComponentAtlas.Text
