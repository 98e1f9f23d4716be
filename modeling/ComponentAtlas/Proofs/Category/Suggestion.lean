/-
Module: ComponentAtlas.Proofs.Category.Suggestion
Purpose: In exact arithmetic the confidence of a suggestion is the share of the weight of a rule
  that was found, whatever the priority of the rule.
Main exports:
  foundWeight, totalWeight, confidence, placeScore_eq, fullScore_eq, suggestion?_eq,
  suggestBy_eq_ranking
-/
import Mathlib.Algebra.Order.Field.Basic
import Mathlib.Data.Rat.Cast.Order
import Mathlib.Tactic.Linarith
import Mathlib.Tactic.NormNum
import Mathlib.Tactic.Ring
import ComponentAtlas.Category.Detector
import ComponentAtlas.Proofs.Ranking

namespace ComponentAtlas.Category

/-- The numbers that suggestions compare with, in exact arithmetic. -/
def exactBounds : Bounds ℚ := { zero := 0, one := 1, least := 0.1, ofNat := Nat.cast }

/-- The suggestions in exact arithmetic, by some way of dividing. -/
def Detector.suggestBy (divide : ℚ → ℚ → ℚ) (detector : Detector ℚ) (signals : Signals) :
    List (Suggestion ℚ) :=
  letI : Div ℚ := ⟨divide⟩
  detector.suggestWith weights exactBounds signals

section

variable {α : Type}

/-- What the patterns of a rule weigh that are found: three for each one in the path, two for each
one in the name of the file or of the component, and one for each one in the source, if that is
known. -/
def foundWeight (rule : Rule α) (signals : Signals) : ℚ :=
  3 * rule.pathPatterns.countP (hitsIn · signals.path) +
    2 * rule.fileNamePatterns.countP (fun pattern =>
      hitsIn pattern signals.fileName || hitsIn pattern signals.componentName) +
    rule.contentPatterns.countP fun pattern => signals.content.any (hitsIn pattern)

/-- What all patterns of a rule weigh. -/
def totalWeight (rule : Rule α) : ℚ :=
  3 * rule.pathPatterns.length + 2 * rule.fileNamePatterns.length + rule.contentPatterns.length

/-- The share of the weight of a rule that is found. -/
def confidence (rule : Rule α) (signals : Signals) : ℚ :=
  foundWeight rule signals / totalWeight rule

variable (rule : Rule α) (signals : Signals)

theorem foundWeight_nonneg : 0 ≤ foundWeight rule signals := by
  unfold foundWeight
  positivity

theorem totalWeight_nonneg : 0 ≤ totalWeight rule := by
  unfold totalWeight
  positivity

/-- Each pattern counts at most once, wherever and however often it is found. -/
theorem foundWeight_le_totalWeight : foundWeight rule signals ≤ totalWeight rule := by
  have atMost : ∀ (isHit : String → Bool) (patterns : List String),
      (patterns.countP isHit : ℚ) ≤ patterns.length :=
    fun _ _ => Nat.cast_le.mpr List.countP_le_length
  have byPath := atMost (hitsIn · signals.path) rule.pathPatterns
  have byName := atMost (fun pattern => hitsIn pattern signals.fileName ||
    hitsIn pattern signals.componentName) rule.fileNamePatterns
  have byContent := atMost (fun pattern => signals.content.any (hitsIn pattern))
    rule.contentPatterns
  unfold foundWeight totalWeight
  linarith

theorem confidence_le_one : confidence rule signals ≤ 1 :=
  div_le_one_of_le₀ (foundWeight_le_totalWeight rule signals) (totalWeight_nonneg rule)

end

/-!
The priority is a factor of the score and of the full score, so it falls out of their quotient.
-/

section

variable (rule : Rule ℚ) (signals : Signals)

theorem addHits_eq (priority weight sum : ℚ) (isHit : String → Bool) (patterns : List String) :
    addHits priority weight isHit patterns sum =
      sum + priority * weight * (patterns.countP isHit : ℚ) := by
  induction patterns generalizing sum with
  | nil => simp [addHits]
  | cons pattern patterns ih =>
      rw [addHits, List.foldl_cons, ← addHits, ih, List.countP_cons]
      split
      case isTrue hit => push_cast [hit]; ring
      case isFalse miss => simp

theorem placeScore_eq :
    placeScore weights 0 rule signals = rule.priority * foundWeight rule signals := by
  unfold placeScore foundWeight
  simp only [weights]
  cases signals.content with
  | none => simp only [addHits_eq, Option.any_none, List.countP_false]; norm_num; ring
  | some content => simp only [addHits_eq, Option.any_some]; norm_num; ring

theorem fullScore_eq :
    fullScore weights exactBounds rule = rule.priority * totalWeight rule := by
  simp only [fullScore, totalWeight, weights, exactBounds]
  norm_num
  ring

/-- A rule with a positive score has a positive priority, and there is something to divide by. -/
theorem pos_of_placeScore_pos (found : 0 < placeScore weights 0 rule signals)
    (full : 0 < fullScore weights exactBounds rule) :
    0 < rule.priority ∧ 0 < totalWeight rule := by
  rw [placeScore_eq] at found
  rw [fullScore_eq] at full
  have priority : 0 < rule.priority :=
    pos_of_mul_pos_left found (foundWeight_nonneg rule signals)
  exact ⟨priority, (mul_pos_iff_of_pos_left priority).mp full⟩

end

/-!
A rule is skipped before anything is divided for it.  Both ways are said over all numbers, so that
they also hold of numbers with another division.
-/

section

variable {α : Type} [Add α] [Mul α] [Div α] [LT α] [DecidableLT α] [LE α] [DecidableLE α]
  {w : Weights α} {b : Bounds α} {rule : Rule α} {signals : Signals}

theorem suggestion?_of_skipped
    (skipped : placeScore w b.zero rule signals ≤ b.zero ∨ fullScore w b rule ≤ b.zero) :
    suggestion? w b signals rule = none := by
  rw [suggestion?, if_pos (by simpa using skipped)]

theorem suggestion?_of_computed {x : α}
    (found : ¬ placeScore w b.zero rule signals ≤ b.zero) (full : ¬ fullScore w b rule ≤ b.zero)
    (computed : clamp b (placeScore w b.zero rule signals / fullScore w b rule) = x) :
    suggestion? w b signals rule =
      if b.least < x then some { category := rule.name, confidence := x } else none := by
  rw [suggestion?, if_neg (by simp [found, full]), computed]

end

section

variable {divide : ℚ → ℚ → ℚ} {rule : Rule ℚ} {signals : Signals}

/-- What is divided for a rule gives its confidence. -/
theorem divide_scores (exact : ∀ x y, y ≠ 0 → divide x y = x / y)
    (found : 0 < placeScore weights 0 rule signals)
    (full : 0 < fullScore weights exactBounds rule) :
    divide (placeScore weights 0 rule signals) (fullScore weights exactBounds rule) =
      confidence rule signals := by
  obtain ⟨priority, -⟩ := pos_of_placeScore_pos rule signals found full
  rw [exact _ _ full.ne', placeScore_eq, fullScore_eq, mul_div_mul_left _ _ priority.ne',
    confidence]

theorem clamp_eq_self {x : ℚ} (atMost : x ≤ 1) : clamp exactBounds x = x :=
  if_neg (not_lt.mpr atMost)

/-- Where some share of a rule of positive priority is found, there is something to divide. -/
theorem placeScore_pos (priority : 0 < rule.priority) (share : 0 < confidence rule signals) :
    0 < placeScore weights 0 rule signals ∧ 0 < fullScore weights exactBounds rule := by
  have total : 0 < totalWeight rule := by
    refine lt_of_le_of_ne (totalWeight_nonneg rule) fun none => ?_
    rw [confidence, ← none, div_zero] at share
    exact lt_irrefl _ share
  rw [placeScore_eq, fullScore_eq]
  exact ⟨mul_pos priority ((div_pos_iff_of_pos_right total).mp share), mul_pos priority total⟩

/-- A rule of positive priority is suggested when its confidence is above one tenth, and no other
rule is. -/
theorem suggestion?_eq (exact : ∀ x y, y ≠ 0 → divide x y = x / y) :
    @suggestion? ℚ _ _ ⟨divide⟩ _ _ _ _ weights exactBounds signals rule =
      if 0 < rule.priority ∧ 1 / 10 < confidence rule signals then
        some { category := rule.name, confidence := confidence rule signals }
      else none := by
  have least : exactBounds.least = 1 / 10 := by norm_num [exactBounds]
  by_cases scored : 0 < placeScore weights 0 rule signals ∧ 0 < fullScore weights exactBounds rule
  · obtain ⟨found, full⟩ := scored
    have priority := (pos_of_placeScore_pos rule signals found full).1
    have computed := clamp_eq_self (confidence_le_one rule signals)
    rw [← divide_scores exact found full] at computed
    rw [@suggestion?_of_computed ℚ _ _ ⟨divide⟩ _ _ _ _ weights exactBounds rule signals _
      (not_le.mpr found) (not_le.mpr full) computed, divide_scores exact found full, least]
    simp only [priority, true_and]
  · have skipped : placeScore weights 0 rule signals ≤ 0 ∨
        fullScore weights exactBounds rule ≤ 0 := by
      simpa only [not_and_or, not_lt] using scored
    rw [@suggestion?_of_skipped ℚ _ _ ⟨divide⟩ _ _ _ _ weights exactBounds rule signals skipped,
      if_neg]
    rintro ⟨priority, share⟩
    exact scored (placeScore_pos priority (lt_trans (by norm_num) share))

end

/-- In exact arithmetic suggestions never divide by zero: they are the same by every division that
is right for other divisors.  What is divided for a rule gives its confidence, whatever its
priority, and as this is at most one the clamp never acts.  The suggestions are the first three of
the rules of positive priority with a confidence above one tenth, the highest confidence first and
equal ones in the order of the rules. -/
theorem suggestBy_eq_ranking (detector : Detector ℚ) (component : Component)
    (content : Option String) {divide : ℚ → ℚ → ℚ}
    (exact : ∀ x y, y ≠ 0 → divide x y = x / y) :
    let signals := Signals.of component content
    (∀ (rule : Rule ℚ) (priority : ℚ),
      let found := placeScore weights 0 { rule with priority } signals
      let full := fullScore weights exactBounds { rule with priority }
      0 < found → 0 < full →
        divide found full = confidence rule signals ∧ confidence rule signals ≤ 1 ∧
          clamp exactBounds (divide found full) = divide found full) ∧
      ∃ ranking,
        StablyRanked (fun rule => confidence rule signals)
          (detector.rules.filter fun rule =>
            0 < rule.priority ∧ 1 / 10 < confidence rule signals) ranking ∧
        detector.suggestBy divide signals =
          (ranking.take 3).map fun rule =>
            { category := rule.name, confidence := confidence rule signals } := by
  intro signals
  constructor
  · intro rule priority found full foundPositive fullPositive
    have computed : divide found full = confidence rule signals :=
      divide_scores exact foundPositive fullPositive
    have atMost := confidence_le_one rule signals
    refine ⟨computed, atMost, ?_⟩
    rw [computed, clamp_eq_self atMost]
  · refine ⟨_, stablyRanked_mergeSort (fun rule => confidence rule signals) _, ?_⟩
    have suggested : detector.rules.filterMap
        (@suggestion? ℚ _ _ ⟨divide⟩ _ _ _ _ weights exactBounds signals) =
          (detector.rules.filter fun rule =>
            0 < rule.priority ∧ 1 / 10 < confidence rule signals).map fun rule =>
              { category := rule.name, confidence := confidence rule signals } := by
      rw [← List.filterMap_eq_map, List.filterMap_filter]
      apply List.filterMap_congr
      intro rule _
      simp [suggestion?_eq exact]
    unfold Detector.suggestBy Detector.suggestWith
    rw [suggested, List.map_take, List.map_mergeSort]
    intro one _ other _
    rfl

/-- Rules of positive, zero and negative priority.  The patterns of the first one repeat, and one of
them is empty. -/
def signRules : List (Rule ℚ) :=
  [{ name := "list", pathPatterns := ["/row/"], fileNamePatterns := ["row", "row", ""]
     contentPatterns := ["map("], priority := 2 },
   { name := "ui", fileNamePatterns := ["card"], priority := 0 },
   { name := "forms", fileNamePatterns := ["card"], priority := -1 },
   { name := "detail", priority := 3 }]

def rowPanel : Component :=
  { (default : Component) with name := "RowPanel", filePath := "src/RowPanel.tsx" }

/-- Seven of the ten that the patterns of the first rule weigh are found, and by a division that
gives five for a divisor of zero the suggestions are the same. -/
theorem suggestBy_signRules :
    let divide : ℚ → ℚ → ℚ := fun x y => if y = 0 then 5 else x / y
    let signals := Signals.of rowPanel (some "rows.map(Row)")
    let rule := { signRules[0] with priority := 4 }
    let found := placeScore weights 0 rule signals
    let full := fullScore weights exactBounds rule
    (∀ x y, y ≠ 0 → divide x y = x / y) ∧ 0 < found ∧ 0 < full ∧ divide found full = 7 / 10 ∧
      clamp exactBounds (divide found full) = divide found full ∧
      ∃ ranking,
        StablyRanked (fun rule => confidence rule signals)
          (signRules.filter fun rule =>
            0 < rule.priority ∧ 1 / 10 < confidence rule signals) ranking ∧
        (Detector.mk signRules).suggestBy divide signals =
          (ranking.take 3).map fun rule =>
            { category := rule.name, confidence := confidence rule signals } := by
  intro divide signals rule found full
  have exact : ∀ x y, y ≠ 0 → divide x y = x / y := fun _ _ notZero => if_neg notZero
  have foundPositive : 0 < found := by decide +kernel
  have fullPositive : 0 < full := by decide +kernel
  have isShare : confidence signRules[0] signals = 7 / 10 := by decide +kernel
  obtain ⟨computed, suggested⟩ :=
    suggestBy_eq_ranking { rules := signRules } rowPanel (some "rows.map(Row)") exact
  obtain ⟨isConfidence, -, isClamped⟩ := computed signRules[0] 4 foundPositive fullPositive
  exact ⟨exact, foundPositive, fullPositive, isConfidence.trans isShare, isClamped, suggested⟩

end ComponentAtlas.Category
