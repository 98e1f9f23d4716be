/-
Module: ComponentAtlas.Proofs.Similarity.Ranking
Purpose: The components most like a given one are ranked by their scores, and a limit takes the
  first of them, but for the limit zero, which takes all.
Main exports:
  FindsMostAlike, similarWith_findsMostAlike, similar_findsMostAlike
-/
import Mathlib.Data.Rat.Cast.Order
import ComponentAtlas.Proofs.Decimal.Order
import ComponentAtlas.Proofs.Ranking
import ComponentAtlas.Proofs.Similarity.Score
import ComponentAtlas.Similarity.Ranking

namespace ComponentAtlas.Similarity

/-- What a search finds by its limit.  Without a limit it ranks the candidates of other files, or
all of them, whose score is at least the threshold, each as often as it is a candidate.  A limit
takes the first of these, and the limit zero takes all. -/
structure FindsMostAlike {α : Type} [LE α] [DecidableLE α] (score : Component → α) (threshold : α)
    (includeSelf : Bool) (target : Component) (candidates : List Component)
    (search : Option Int → List (Match α)) : Prop where
  ranked : StablyRanked score
    (candidates.filter fun candidate =>
      (includeSelf ∨ candidate.filePath ≠ target.filePath) ∧ threshold ≤ score candidate)
    ((search none).map (·.component))
  scored : ∀ found ∈ search none, found.similarity = score found.component
  limited : ∀ limit : Nat,
    search (some limit) = if limit = 0 then search none else (search none).take limit

theorem limited_ofNat {β : Type} (limit : Nat) (entries : List β) :
    limited (some limit) entries = if limit = 0 then entries else entries.take limit := by
  cases limit with
  | zero => rfl
  | succ more =>
      have positive : (0 : Int) < (more + 1 : Nat) := Int.natCast_pos.mpr more.succ_pos
      rw [limited, if_neg positive.ne', if_pos positive, Int.toNat_natCast,
        if_neg more.succ_ne_zero]

section

variable {α : Type} [LE α] [DecidableLE α] [LT α] [DecidableLT α]

/-- Scores may be added after sorting. -/
theorem ranked_eq {β : Type} (score : β → α) (threshold : α) (entries : List β) :
    ranked score threshold entries =
      ((entries.filter fun entry => !decide (score entry < threshold)).mergeSort
        fun one other => decide (score other ≤ score one)).map
          fun entry => (entry, score entry) := by
  rw [ranked, List.filter_map, List.map_mergeSort]
  · rfl
  · intro one _ other _
    rfl

variable [OfScientific α] [Div α] [Add α] [Mul α] {κ : Type} [LinearOrder κ]

/-- Whatever the numbers are, a search ranks the candidates as soon as their scores are in the
order of some keys and can be compared with the threshold. -/
theorem similarWith_findsMostAlike (key : α → κ) (w : Weights α) (ofNat : Nat → α)
    (target : Component) (candidates : List Component) (threshold : α) (includeSelf : Bool)
    (ordered : ∀ one ∈ candidates, ∀ other ∈ candidates,
      similarityWith w ofNat target one ≤ similarityWith w ofNat target other ↔
        key (similarityWith w ofNat target one) ≤ key (similarityWith w ofNat target other))
    (reaches : ∀ candidate ∈ candidates,
      ¬ similarityWith w ofNat target candidate < threshold ↔
        threshold ≤ similarityWith w ofNat target candidate) :
    FindsMostAlike (similarityWith w ofNat target) threshold includeSelf target candidates
      fun limit => similarWith w ofNat target candidates threshold limit includeSelf := by
  have isAll : similarWith w ofNat target candidates threshold none includeSelf =
      ((((rivals includeSelf target candidates).filter fun candidate =>
        !decide (similarityWith w ofNat target candidate < threshold)).mergeSort
          fun one other => decide (similarityWith w ofNat target other ≤
            similarityWith w ofNat target one)).map
              fun candidate => matchOf ofNat target candidate
                (similarityWith w ofNat target candidate)) := by
    rw [similarWith, limited, ranked_eq, List.map_map]
    rfl
  have eligible : (rivals includeSelf target candidates).filter (fun candidate =>
        !decide (similarityWith w ofNat target candidate < threshold)) =
      candidates.filter fun candidate =>
        (includeSelf ∨ candidate.filePath ≠ target.filePath) ∧
          threshold ≤ similarityWith w ofNat target candidate := by
    rw [rivals, List.filter_filter]
    apply List.filter_congr
    intro candidate member
    rw [Bool.eq_iff_iff]
    simp only [Bool.and_eq_true, Bool.not_eq_true', Bool.or_eq_true, decide_eq_false_iff_not,
      decide_eq_true_eq, reaches candidate member]
    exact and_comm
  refine ⟨?_, ?_, ?_⟩
  · rw [isAll, eligible, List.map_map]
    have isRanked : StablyRanked (similarityWith w ofNat target)
        (candidates.filter fun candidate =>
          (includeSelf ∨ candidate.filePath ≠ target.filePath) ∧
            threshold ≤ similarityWith w ofNat target candidate) _ :=
      stablyRanked_mergeSort_of_key (fun candidate => key (similarityWith w ofNat target candidate))
        fun one isOne other isOther =>
          ordered one (List.mem_of_mem_filter isOne) other (List.mem_of_mem_filter isOther)
    simpa only [Function.comp_def, matchOf, List.map_id'] using isRanked
  · intro found member
    rw [isAll, List.mem_map] at member
    obtain ⟨candidate, -, rfl⟩ := member
    rfl
  · intro limit
    exact limited_ofNat limit _

end

/-- A search for the components most like a target ranks the other candidates with a score of at
least the threshold, the highest score first and equal ones in the given order.  A limit takes the
first of them, except that the limit zero takes all.  This holds in exact arithmetic and of the
scores in floats, as long as these and the threshold are numbers. -/
theorem similar_findsMostAlike (target : Component) (candidates : List Component)
    (includeSelf : Bool) :
    (∀ threshold : ℚ,
      FindsMostAlike (exactSimilarity target) threshold includeSelf target candidates
        fun limit => similarWith weights Nat.cast target candidates threshold limit includeSelf) ∧
      ∀ threshold : Float, threshold.isNaN = false →
        (∀ candidate ∈ candidates, (similarity target candidate).isNaN = false) →
          FindsMostAlike (similarity target) threshold includeSelf target candidates
            fun limit => similarTo target candidates threshold limit includeSelf := by
  constructor
  · intro threshold
    exact similarWith_findsMostAlike id weights Nat.cast target candidates threshold includeSelf
      (fun _ _ _ _ => Iff.rfl) fun _ _ => not_lt
  · intro threshold isNumber areNumbers
    apply similarWith_findsMostAlike (fun x : Float => Decimal.place x.toModel.unpack)
    · intro one isOne other isOther
      exact Decimal.le_iff_place_le (areNumbers one isOne) (areNumbers other isOther)
    · intro candidate member
      have isScore := areNumbers candidate member
      change ¬ similarity target candidate < threshold ↔ threshold ≤ similarity target candidate
      rw [Decimal.lt_iff_place_lt isScore isNumber, Decimal.le_iff_place_le isNumber isScore]
      exact not_lt

/-- The target is among the candidates, and two files have the same contents. -/
theorem similar_findsMostAlike_cards :
    let target := bareComponent "/a.tsx" []
    let candidates := [bareComponent "/b.tsx" [textProp "title"], target, bareComponent "/c.tsx" [],
      bareComponent "/d.tsx" []]
    (0.5 : Float).isNaN = false ∧
      (∀ candidate ∈ candidates, (similarity target candidate).isNaN = false) ∧
      FindsMostAlike (similarity target) 0.5 false target candidates
        fun limit => similarTo target candidates 0.5 limit false := by
  intro target candidates
  have isNumber : (0.5 : Float).isNaN = false := by decide +kernel
  have areNumbers : ∀ candidate ∈ candidates, (similarity target candidate).isNaN = false := by
    decide +kernel
  exact ⟨isNumber, areNumbers,
    (similar_findsMostAlike target candidates false).2 0.5 isNumber areNumbers⟩

end ComponentAtlas.Similarity
