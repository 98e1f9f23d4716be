/-
Module: ComponentAtlas.Proofs.Category.Detection
Purpose: In exact arithmetic the category of a component is that of the first of the best rules,
  and rules of different priorities may be added in any order.
Main exports:
  Elects, elects_best, rules_foldl_add_of_perm, detector_spec
-/
import Mathlib
import ComponentAtlas.Proofs.Category.Rules

namespace ComponentAtlas.Category

section

variable {α : Type} [LinearOrder α]

/-- What rules lead to when a name is given for the case that none of them rates above a bound: the
name of the first of those that rate highest. -/
inductive Elects (rate : Rule α → α) (bound : α) (fallback : String) :
    List (Rule α) → String → Prop where
  | first {before after : List (Rule α)} {rule : Rule α} (above : bound < rate rule)
      (earlier : ∀ other ∈ before, rate other < rate rule)
      (later : ∀ other ∈ after, rate other ≤ rate rule) :
      Elects rate bound fallback (before ++ rule :: after) rule.name
  | none {rules : List (Rule α)} (low : ∀ rule ∈ rules, rate rule ≤ bound) :
      Elects rate bound fallback rules fallback

variable {rate : Rule α → α} {bound : α} {fallback found : String} {rule : Rule α}
  {rules added others : List (Rule α)}

/-- A rule above the bound takes its place. -/
theorem Elects.cons_of_lt (above : bound < rate rule)
    (rest : Elects rate (rate rule) rule.name rules found) :
    Elects rate bound fallback (rule :: rules) found := by
  cases rest with
  | @first before after winner better earlier later =>
      have first : ∀ other ∈ rule :: before, rate other < rate winner :=
        List.forall_mem_cons.mpr ⟨better, earlier⟩
      exact .first (lt_trans above better) first later
  | none low =>
      have earlier : ∀ other ∈ ([] : List (Rule α)), rate other < rate rule :=
        List.forall_mem_nil _
      exact .first above earlier low

/-- A rule that is not above the bound changes nothing. -/
theorem Elects.cons_of_le (low : rate rule ≤ bound)
    (rest : Elects rate bound fallback rules found) :
    Elects rate bound fallback (rule :: rules) found := by
  cases rest with
  | @first before after winner above earlier later =>
      have first : ∀ other ∈ rule :: before, rate other < rate winner :=
        List.forall_mem_cons.mpr ⟨lt_of_le_of_lt low above, earlier⟩
      exact .first above first later
  | none lower => exact .none (List.forall_mem_cons.mpr ⟨low, lower⟩)

theorem elects_best (rate : Rule α → α) (fallback : String) (bound : α) (rules : List (Rule α)) :
    Elects rate bound fallback rules (best rate fallback bound rules) := by
  -- The bound and the name that are carried along are those of the best rule so far.
  induction rules generalizing fallback bound with
  | nil => exact .none (List.forall_mem_nil _)
  | cons rule rules ih =>
      rw [best]
      split
      case isTrue above => exact (ih rule.name (rate rule)).cons_of_lt above
      case isFalse notAbove => exact (ih fallback bound).cons_of_le (le_of_not_gt notAbove)

/-- The order in which rules of different priorities are added is not seen in the detector. -/
theorem rules_foldl_add_of_perm {detector : Detector α} {before : List (Rule α)}
    (ranked : AreRanked before detector.rules) (perm : added.Perm others)
    (nodup : (added.map (·.priority)).Nodup) :
    added.foldl Detector.add detector = others.foldl Detector.add detector := by
  apply congrArg Detector.mk
  apply (ranked.foldl_add added).unique (ranked.foldl_add others)
  intro priority
  rw [List.filter_append, List.filter_append, filter_key_eq_of_perm perm nodup]

end

/-- Whatever rules are added and removed, a detector holds those that are left, the highest
priority first and equal ones in the order in which they were added.  The category of a component
is the name of the first of the rules with the greatest score when that is positive, and the
general one otherwise; so more rules of different priorities may be added in any order. -/
theorem detector_spec (initial : List (Rule ℚ)) (changes : List (Change ℚ)) :
    let detector := (Detector.ofRules initial).run changes
    AreRanked (survivors initial changes) detector.rules ∧
      (∀ component content,
        Elects (fun rule => score weights 0 rule (Signals.of component content)) 0 generalCategory
          detector.rules (detector.detectWith weights 0 (Signals.of component content))) ∧
      ∀ added others : List (Rule ℚ), added.Perm others → (added.map (·.priority)).Nodup →
        ∀ component content,
          (added.foldl Detector.add detector).detectWith weights 0 (Signals.of component content) =
            (others.foldl Detector.add detector).detectWith weights 0
              (Signals.of component content) := by
  intro detector
  have ranked : AreRanked (survivors initial changes) detector.rules :=
    areRanked_run initial changes
  refine ⟨ranked, ?_, ?_⟩
  · intro component content
    exact elects_best _ _ _ _
  · intro added others perm nodup component content
    rw [rules_foldl_add_of_perm ranked perm nodup]

/-- A rule that looks for one word in the names of files and components. -/
def wordRule (category word : String) (priority : ℚ) : Rule ℚ :=
  { name := category, fileNamePatterns := [word], priority }

def rowCard : Component :=
  { (default : Component) with name := "RowCard", filePath := "src/RowCard.tsx" }

/-- Of two rules with one name and one priority the one that was added first is removed, and two
more rules lead to one category in whatever order they are added. -/
theorem detector_rowCard :
    let initial := [wordRule "list" "row" 1, wordRule "ui" "card" 3]
    let changes := [.add (wordRule "ui" "button" 3), .remove "ui"]
    let added := [wordRule "detail" "row" 2, wordRule "forms" "card" 4]
    let detector := (Detector.ofRules initial).run changes
    AreRanked [wordRule "list" "row" 1, wordRule "ui" "button" 3] detector.rules ∧
      (added.map (·.priority)).Nodup ∧ added.Perm added.reverse ∧
      (added.reverse.foldl Detector.add detector).detectWith weights 0 (Signals.of rowCard none) =
        "forms" := by
  intro initial changes added detector
  have left : survivors initial changes =
      [wordRule "list" "row" 1, wordRule "ui" "button" 3] := by decide +kernel
  have rules : (added.foldl Detector.add detector).rules =
      [wordRule "forms" "card" 4, wordRule "ui" "button" 3, wordRule "detail" "row" 2,
        wordRule "list" "row" 1] := by cbv
  have nodup : (added.map (·.priority)).Nodup := by decide +kernel
  have perm : added.Perm added.reverse := by decide +kernel
  obtain ⟨ranked, -, anyOrder⟩ := detector_spec initial changes
  refine ⟨left ▸ ranked, nodup, perm, ?_⟩
  rw [← anyOrder added added.reverse perm nodup rowCard none, Detector.detectWith, rules]
  decide +kernel

end ComponentAtlas.Category
