/-
Module: ComponentAtlas.Proofs.Similarity.Score
Purpose: In exact arithmetic all scores lie between zero and one, likeness reaches one, and
  it is the same in both directions unless props repeat.
Main exports:
  exactSimilarity, exactSimilarity_eq, exactSimilarity_comm_iff, exactSimilarity_mem_Icc
-/
import Mathlib.Algebra.Order.Field.Basic
import Mathlib.Data.Rat.Cast.Order
import Mathlib.Order.Interval.Set.Defs
import Mathlib.Tactic.Linarith
import Mathlib.Tactic.NormNum
import ComponentAtlas.Proofs.Component.Imports
import ComponentAtlas.Proofs.Similarity.EditDistance
import ComponentAtlas.Similarity.Score

namespace ComponentAtlas.Similarity

/-- How alike two components are, in exact arithmetic. -/
def exactSimilarity (left right : Component) : ℚ := similarityWith weights Nat.cast left right

/-!
Each score is a share, which lies between zero and one as long as the part is not more than
the whole.
-/

section

variable {part other whole : Nat}

theorem share_nonneg (part whole : Nat) : 0 ≤ share (Nat.cast : Nat → ℚ) part whole :=
  div_nonneg (Nat.cast_nonneg part) (Nat.cast_nonneg whole)

theorem share_mem_Icc (atMost : part ≤ whole) :
    share (Nat.cast : Nat → ℚ) part whole ∈ Set.Icc 0 1 :=
  ⟨share_nonneg part whole, div_le_one_of_le₀ (Nat.cast_le.mpr atMost) (Nat.cast_nonneg whole)⟩

theorem share_self (positive : 0 < whole) : share (Nat.cast : Nat → ℚ) whole whole = 1 :=
  div_self (Nat.cast_ne_zero.mpr positive.ne')

theorem share_lt_one_iff (positive : 0 < whole) :
    share (Nat.cast : Nat → ℚ) part whole < 1 ↔ part < whole := by
  rw [share, div_lt_one (Nat.cast_pos.mpr positive), Nat.cast_lt]

theorem share_pos_iff (atMost : part ≤ whole) :
    0 < share (Nat.cast : Nat → ℚ) part whole ↔ 0 < part := by
  rw [share]
  constructor
  · intro positive
    refine Nat.pos_of_ne_zero fun none => ?_
    rw [none, Nat.cast_zero, zero_div] at positive
    exact lt_irrefl _ positive
  · intro positive
    exact div_pos (Nat.cast_pos.mpr positive) (Nat.cast_pos.mpr (positive.trans_le atMost))

theorem share_inj (positive : 0 < whole) :
    share (Nat.cast : Nat → ℚ) part whole = share Nat.cast other whole ↔ part = other := by
  rw [share, share, div_left_inj' (Nat.cast_ne_zero.mpr positive.ne'), Nat.cast_inj]

end

theorem atMostOne_eq_min (x : ℚ) : atMostOne x = min x 1 := by
  rw [atMostOne]
  split
  case isTrue less => norm_num at less ⊢; exact less.le
  case isFalse notLess => norm_num at notLess ⊢; exact notLess

section

variable {β : Type} {left right : List β} {score : ℚ}

theorem compared_nil_nil : compared ([] : List β) ([] : List β) score = 1 := by
  norm_num [compared]

theorem compared_of_ne_nil (ne_nil : left ≠ []) (other_ne_nil : right ≠ []) :
    compared left right score = score := by
  simp [compared, ne_nil, other_ne_nil]

theorem compared_mem_Icc (inside : score ∈ Set.Icc 0 1) :
    compared left right score ∈ Set.Icc 0 1 := by
  unfold compared
  split
  · norm_num
  · split
    · norm_num
    · exact inside

theorem compared_comm {reverse : ℚ} (same : score = reverse) :
    compared left right score = compared right left reverse := by
  cases left <;> cases right <;> simp [compared, same]

theorem compared_self (isOne : left ≠ [] → score = 1) : compared left left score = 1 := by
  by_cases empty : left = []
  · rw [empty, compared_nil_nil]
  · rw [compared_of_ne_nil empty empty, isOne empty]

end

/-!
Names.
-/

section

variable (left right : String)

theorem nameScore_comm :
    nameScore (Nat.cast : Nat → ℚ) left right = nameScore Nat.cast right left := by
  simp only [nameScore, max_comm left.length, editDistance_comm left.toList]

theorem nameScore_mem_Icc : nameScore (Nat.cast : Nat → ℚ) left right ∈ Set.Icc 0 1 := by
  unfold nameScore
  dsimp only
  split
  · norm_num
  · exact share_mem_Icc (Nat.sub_le _ _)

theorem nameScore_self : nameScore (Nat.cast : Nat → ℚ) left left = 1 := by
  unfold nameScore
  dsimp only
  split
  · norm_num
  · rename_i notEmpty
    rw [editDistance_self, Nat.sub_zero]
    exact share_self (Nat.pos_of_ne_zero notEmpty)

end

/-!
Props.  The entries of one side are counted and the names of both, so that a side that
repeats a prop counts it as often as it has it.
-/

section

variable {left right : List PropDecl}

theorem propNames_comm (left right : List PropDecl) :
    propNames left right = propNames right left := by
  refine length_distinct_congr fun name => ?_
  simp only [List.map_append, List.mem_append, or_comm]

theorem propNames_pos (ne_nil : left ≠ []) (right : List PropDecl) : 0 < propNames left right := by
  obtain ⟨prop, more, rfl⟩ := List.exists_cons_of_ne_nil ne_nil
  refine List.length_pos_of_mem ((mem_distinct _ prop.name).mpr ?_)
  exact List.mem_cons_self

theorem propNames_self_le (props : List PropDecl) : propNames props props ≤ props.length := by
  have named : distinct ((props ++ props).map (·.name)) ⊆ props.map (·.name) := by
    intro name member
    simpa only [mem_distinct, List.map_append, List.mem_append, or_self] using member
  calc propNames props props ≤ (props.map (·.name)).length :=
        ((nodup_distinct _).subperm named).length_le
    _ = props.length := List.length_map _

theorem commonProps_self (props : List PropDecl) : commonProps props props = props.length :=
  List.countP_eq_length.mpr fun _ member => decide_eq_true (List.mem_map_of_mem member)

theorem commonProps_nil_left (right : List PropDecl) : commonProps [] right = 0 := rfl

theorem commonProps_nil_right (left : List PropDecl) : commonProps left [] = 0 := by
  simp [commonProps]

/-- Without repetitions the props that both sides have are counted alike. -/
theorem commonProps_comm (nodup : (left.map propKey).Nodup) (otherNodup : (right.map propKey).Nodup) :
    commonProps left right = commonProps right left := by
  have counted : ∀ props others : List PropDecl,
      commonProps props others = ((props.map propKey).filter (· ∈ others.map propKey)).length := by
    intro props others
    rw [← List.countP_eq_length_filter, List.countP_map]
    rfl
  rw [counted, counted]
  refine length_eq_of_nodup (nodup.filter _) (otherNodup.filter _) fun key => ?_
  simp only [List.mem_filter, decide_eq_true_eq, and_comm]

theorem propsScore_mem_Icc (left right : List PropDecl) :
    propsScore (Nat.cast : Nat → ℚ) left right ∈ Set.Icc 0 1 := by
  refine compared_mem_Icc ?_
  rw [atMostOne_eq_min]
  exact ⟨le_min (share_nonneg _ _) zero_le_one, min_le_right _ _⟩

theorem propsScore_self (props : List PropDecl) :
    propsScore (Nat.cast : Nat → ℚ) props props = 1 := by
  refine compared_self fun ne_nil => ?_
  have positive := propNames_pos ne_nil props
  have notLess :
      ¬ share (Nat.cast : Nat → ℚ) (commonProps props props) (propNames props props) < 1 := by
    rw [share_lt_one_iff positive, commonProps_self, not_lt]
    exact propNames_self_le props
  rw [atMostOne_eq_min, min_eq_right (not_lt.mp notLess)]

/-- The score of props is the same in both directions exactly when both sides have as many
props that the other has too, or both so many that they count as all. -/
theorem propsScore_comm_iff (left right : List PropDecl) :
    propsScore (Nat.cast : Nat → ℚ) left right = propsScore Nat.cast right left ↔
      commonProps left right = commonProps right left ∨
        propNames left right ≤ commonProps left right ∧
          propNames left right ≤ commonProps right left := by
  by_cases empty : left = [] ∨ right = []
  · have noCommon : commonProps left right = commonProps right left := by
      rcases empty with rfl | rfl <;> simp [commonProps_nil_left, commonProps_nil_right]
    have same : propsScore (Nat.cast : Nat → ℚ) left right = propsScore Nat.cast right left := by
      refine compared_comm ?_
      rw [noCommon, propNames_comm]
    exact iff_of_true same (.inl noCommon)
  · rw [not_or] at empty
    have positive := propNames_pos empty.1 right
    rw [propsScore, propsScore, compared_of_ne_nil empty.1 empty.2,
      compared_of_ne_nil empty.2 empty.1, propNames_comm right, atMostOne_eq_min, atMostOne_eq_min]
    -- A share is cut off at one exactly where its part is not less than the whole.
    have cut : ∀ part, min (share (Nat.cast : Nat → ℚ) part (propNames left right)) 1 =
        if part < propNames left right then share Nat.cast part (propNames left right) else 1 := by
      intro part
      split
      case isTrue less => exact min_eq_left ((share_lt_one_iff positive).mpr less).le
      case isFalse notLess =>
        exact min_eq_right (not_lt.mp ((share_lt_one_iff positive).not.mpr notLess))
    have below : ∀ {part}, part < propNames left right →
        share (Nat.cast : Nat → ℚ) part (propNames left right) ≠ 1 :=
      fun less => ((share_lt_one_iff positive).mpr less).ne
    rw [cut, cut]
    split <;> split
    case isTrue.isTrue less otherLess =>
      rw [share_inj positive]
      omega
    case isTrue.isFalse less notLess =>
      exact iff_of_false (below less) (by omega)
    case isFalse.isTrue notLess less =>
      exact iff_of_false (below less).symm (by omega)
    case isFalse.isFalse notLess otherNotLess =>
      exact iff_of_true rfl (.inr ⟨by omega, by omega⟩)

end

/-!
Styles.  Each declaration counts once on either side.
-/

section

variable (left right styles : List StyleDecl)

theorem stylesScore_comm :
    stylesScore (Nat.cast : Nat → ℚ) left right = stylesScore Nat.cast right left := by
  refine compared_comm ?_
  congr 1
  · rw [List.countP_eq_length_filter, List.countP_eq_length_filter]
    refine length_eq_of_nodup ((nodup_distinct _).filter _) ((nodup_distinct _).filter _)
      fun key => ?_
    simp only [List.mem_filter, decide_eq_true_eq, and_comm]
  · refine length_distinct_congr fun key => ?_
    simp only [List.mem_append, or_comm]

theorem stylesScore_mem_Icc :
    stylesScore (Nat.cast : Nat → ℚ) left right ∈ Set.Icc 0 1 := by
  refine compared_mem_Icc (share_mem_Icc ?_)
  have among : distinct (left.map styleKey) ⊆
      distinct (distinct (left.map styleKey) ++ distinct (right.map styleKey)) := by
    intro key member
    exact (mem_distinct _ key).mpr (List.mem_append_left _ member)
  exact List.countP_le_length.trans ((nodup_distinct _).subperm among).length_le

theorem stylesScore_self : stylesScore (Nat.cast : Nat → ℚ) styles styles = 1 := by
  refine compared_self fun ne_nil => ?_
  obtain ⟨style, more, rfl⟩ := List.exists_cons_of_ne_nil ne_nil
  have all : (distinct ((style :: more).map styleKey)).countP
      (· ∈ distinct ((style :: more).map styleKey)) =
      (distinct ((style :: more).map styleKey)).length :=
    List.countP_eq_length.mpr fun key member => decide_eq_true member
  have once : (distinct (distinct ((style :: more).map styleKey) ++
      distinct ((style :: more).map styleKey))).length =
      (distinct ((style :: more).map styleKey)).length := by
    refine length_eq_of_nodup (nodup_distinct _) (nodup_distinct _) fun key => ?_
    rw [mem_distinct, List.mem_append, or_self]
  have positive : 0 < (distinct ((style :: more).map styleKey)).length :=
    List.length_pos_of_mem ((mem_distinct _ (styleKey style)).mpr List.mem_cons_self)
  rw [all, once, share_self positive]

end

/-!
The whole score.
-/

/-- Two components of other names or other files are scored by five shares, whose weights add
up to one. -/
theorem exactSimilarity_eq (left right : Component) :
    exactSimilarity left right =
      if left.name = right.name ∧ left.filePath = right.filePath then 1
      else nameScore Nat.cast left.name right.name * (3 / 10) +
        (if left.category = right.category then 1 / 5 else 0) +
        (if left.framework = right.framework then 1 / 10 else 0) +
        propsScore Nat.cast left.props right.props * (1 / 4) +
        stylesScore Nat.cast left.styles right.styles * (3 / 20) := by
  have total : (weights : Weights ℚ).total = 1 := by norm_num [weights, Weights.total]
  rw [exactSimilarity, similarityWith, total, weightedSum]
  simp only [Bool.and_eq_true, decide_eq_true_eq, addIf, weights]
  split
  case isTrue => norm_num
  case isFalse => split <;> split <;> norm_num

/-- In exact arithmetic two components are as alike in one direction as in the other exactly
when they are the same one, or the props of each that the other has too are equally many, or
there are on both sides at least as many of them as names of props.  So they are whenever
neither repeats a prop with its type. -/
theorem exactSimilarity_comm_iff (left right : Component) :
    (exactSimilarity left right = exactSimilarity right left ↔
      (left.name = right.name ∧ left.filePath = right.filePath) ∨
        commonProps left.props right.props = commonProps right.props left.props ∨
        propNames left.props right.props ≤ commonProps left.props right.props ∧
          propNames left.props right.props ≤ commonProps right.props left.props) ∧
      ((left.props.map propKey).Nodup → (right.props.map propKey).Nodup →
        exactSimilarity left right = exactSimilarity right left) := by
  have exact_iff : exactSimilarity left right = exactSimilarity right left ↔
      (left.name = right.name ∧ left.filePath = right.filePath) ∨
        propsScore (Nat.cast : Nat → ℚ) left.props right.props =
          propsScore Nat.cast right.props left.props := by
    rw [exactSimilarity_eq, exactSimilarity_eq, nameScore_comm right.name,
      stylesScore_comm right.styles]
    simp only [eq_comm (a := right.name), eq_comm (a := right.filePath),
      eq_comm (a := right.category), eq_comm (a := right.framework)]
    split
    case isTrue same => exact iff_of_true rfl (.inl same)
    case isFalse other =>
      rw [or_iff_right other]
      constructor
      · intro same
        linarith
      · intro same
        rw [same]
  rw [propsScore_comm_iff] at exact_iff
  refine ⟨exact_iff, fun nodup otherNodup => ?_⟩
  exact exact_iff.mpr (.inr (.inl (commonProps_comm nodup otherNodup)))

/-- A component with some props and nothing else. -/
def bareComponent (filePath : String) (props : List PropDecl) : Component :=
  { name := "Card"
    filePath
    framework := unknownFramework
    props
    styles := []
    usageExamples := []
    dependencies := []
    category := generalCategory
    lastModified := default }

/-- A required prop for a text. -/
def textProp (name : String) : PropDecl := { name, type := "string", required := true }

/-- One component declares a prop twice, as with two declarations of props in its file: two of
its three props are matched by the other, which has one prop that is matched. -/
theorem exactSimilarity_repeatedProp :
    exactSimilarity (bareComponent "/a.tsx" [textProp "title", textProp "title", textProp "size"])
        (bareComponent "/b.tsx" [textProp "title", textProp "count"]) = 11 / 12 ∧
      exactSimilarity (bareComponent "/b.tsx" [textProp "title", textProp "count"])
        (bareComponent "/a.tsx" [textProp "title", textProp "title", textProp "size"]) = 5 / 6 ∧
      ¬ ∀ left right : Component, exactSimilarity left right = exactSimilarity right left := by
  refine ⟨by decide +kernel, by decide +kernel, fun symmetric => ?_⟩
  have same := symmetric
    (bareComponent "/a.tsx" [textProp "title", textProp "title", textProp "size"])
    (bareComponent "/b.tsx" [textProp "title", textProp "count"])
  revert same
  decide +kernel

theorem exactSimilarity_comm_bare :
    ((bareComponent "/a.tsx" [textProp "title", textProp "size"]).props.map propKey).Nodup ∧
      ((bareComponent "/b.tsx" [textProp "title"]).props.map propKey).Nodup ∧
      exactSimilarity (bareComponent "/a.tsx" [textProp "title", textProp "size"])
          (bareComponent "/b.tsx" [textProp "title"]) =
        exactSimilarity (bareComponent "/b.tsx" [textProp "title"])
          (bareComponent "/a.tsx" [textProp "title", textProp "size"]) :=
  ⟨by decide, by decide, (exactSimilarity_comm_iff _ _).2 (by decide) (by decide)⟩

/-- In exact arithmetic the similarity of two components and its scores for names, props and
styles lie between zero and one, and components that agree in all that is compared have the
similarity one, wherever their files are and however often they repeat a prop or a style. -/
theorem exactSimilarity_mem_Icc (left right : Component) :
    exactSimilarity left right ∈ Set.Icc 0 1 ∧
      nameScore (Nat.cast : Nat → ℚ) left.name right.name ∈ Set.Icc 0 1 ∧
      propsScore (Nat.cast : Nat → ℚ) left.props right.props ∈ Set.Icc 0 1 ∧
      stylesScore (Nat.cast : Nat → ℚ) left.styles right.styles ∈ Set.Icc 0 1 ∧
      (left.name = right.name → left.category = right.category →
        left.framework = right.framework → left.props = right.props →
        left.styles = right.styles → exactSimilarity left right = 1) := by
  have byName := nameScore_mem_Icc left.name right.name
  have byProps := propsScore_mem_Icc left.props right.props
  have byStyles := stylesScore_mem_Icc left.styles right.styles
  refine ⟨?_, byName, byProps, byStyles, fun name category framework props styles => ?_⟩
  · obtain ⟨⟨nameLow, nameHigh⟩, ⟨propsLow, propsHigh⟩, ⟨stylesLow, stylesHigh⟩⟩ :=
      And.intro byName (And.intro byProps byStyles)
    rw [exactSimilarity_eq, Set.mem_Icc]
    split
    case isTrue => norm_num
    case isFalse => split <;> split <;> constructor <;> linarith
  · rw [exactSimilarity_eq, name, category, framework, props, styles, nameScore_self,
      propsScore_self, stylesScore_self]
    split <;> norm_num

/-- A prop and a style that both components repeat. -/
theorem exactSimilarity_repeatedAlike :
    (bareComponent "/a.tsx" [textProp "title", textProp "title"]).filePath ≠
        (bareComponent "/b.tsx" [textProp "title", textProp "title"]).filePath ∧
      exactSimilarity
        { bareComponent "/a.tsx" [textProp "title", textProp "title"] with
          styles := [{ property := "color", value := "red" }, { property := "color", value := "red" }] }
        { bareComponent "/b.tsx" [textProp "title", textProp "title"] with
          styles := [{ property := "color", value := "red" },
            { property := "color", value := "red" }] } = 1 :=
  ⟨by decide, (exactSimilarity_mem_Icc _ _).2.2.2.2 rfl rfl rfl rfl rfl⟩

end ComponentAtlas.Similarity
