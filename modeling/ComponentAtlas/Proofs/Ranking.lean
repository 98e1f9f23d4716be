/-
Module: ComponentAtlas.Proofs.Ranking
Purpose: Lists sorted by a key, the greatest first, in which those of equal keys stay in their
  order.
Main exports:
  Ranks, Ranks.pairwise_mergeSort, Ranks.filter_mergeSort, Ranks.pairwise_mergeSort_of_pairwise,
  filter_eraseP_of_key, filter_key_eq_of_perm, eq_of_filter_key_eq, StablyRanked,
  stablyRanked_mergeSort_of_key, stablyRanked_mergeSort
-/
import Mathlib.Data.List.Nodup
import Mathlib.Order.Lattice

namespace ComponentAtlas

/-- The comparison puts greater keys first. -/
def Ranks {α κ : Type} [LE κ] (key : α → κ) (comes : α → α → Bool) : Prop :=
  ∀ one other, comes one other = true ↔ key other ≤ key one

section

variable {α κ : Type} [LinearOrder κ] {key : α → κ} {comes : α → α → Bool}
  {items others : List α} {relates : α → α → Prop}

theorem Ranks.trans (ranks : Ranks key comes) :
    ∀ one other third, comes one other → comes other third → comes one third := by
  intro one other third first second
  rw [ranks] at first second ⊢
  exact le_trans second first

theorem Ranks.total (ranks : Ranks key comes) :
    ∀ one other, (comes one other || comes other one) = true := by
  intro one other
  rw [Bool.or_eq_true, ranks, ranks]
  exact le_total _ _

/-- What is sorted comes in the order of the keys, the greatest first. -/
theorem Ranks.pairwise_mergeSort (ranks : Ranks key comes) (items : List α) :
    (items.mergeSort comes).Pairwise fun one other => key other ≤ key one := by
  have sorted := List.pairwise_mergeSort ranks.trans ranks.total items
  apply sorted.imp
  intro one other isBefore
  exact (ranks one other).mp isBefore

/-- Those of one key stay in their order. -/
theorem Ranks.filter_mergeSort (ranks : Ranks key comes) (items : List α) (k : κ) :
    (items.mergeSort comes).filter (key · = k) = items.filter (key · = k) := by
  have together : (items.filter (key · = k)).Pairwise fun one other => comes one other = true := by
    apply List.pairwise_of_forall_mem_list
    intro one isOne other isOther
    have oneKey : key one = k := of_decide_eq_true (List.mem_filter.mp isOne).2
    have otherKey : key other = k := of_decide_eq_true (List.mem_filter.mp isOther).2
    exact (ranks one other).mpr (le_of_eq (otherKey.trans oneKey.symm))
  have kept : (items.filter (key · = k)).Sublist (items.mergeSort comes) :=
    List.sublist_mergeSort ranks.trans ranks.total together List.filter_sublist
  have within := kept.filter (key · = k)
  rw [List.filter_filter] at within
  simp only [Bool.and_self] at within
  apply (within.eq_of_length _).symm
  exact ((List.mergeSort_perm items comes).filter _).length_eq.symm

/-- Of two in what is sorted, the first has the greater key, or the keys are equal and it came
first before. -/
theorem Ranks.pairwise_mergeSort_of_pairwise (ranks : Ranks key comes)
    (related : items.Pairwise relates) :
    (items.mergeSort comes).Pairwise fun one other =>
      key other < key one ∨ key one = key other ∧ relates one other := by
  rw [List.pairwise_iff_forall_sublist]
  intro one other isPair
  have isBefore := List.pairwise_iff_forall_sublist.mp (ranks.pairwise_mergeSort items) isPair
  rcases lt_or_eq_of_le isBefore with less | same
  · exact .inl less
  · have ofKey := isPair.filter (key · = key one)
    rw [ranks.filter_mergeSort, List.filter_cons_of_pos (by simp),
      List.filter_cons_of_pos (by simpa using same), List.filter_nil] at ofKey
    exact .inr ⟨same.symm,
      List.pairwise_iff_forall_sublist.mp related (ofKey.trans List.filter_sublist)⟩

theorem mem_iff_of_filter_key_eq
    (same : ∀ k, items.filter (key · = k) = others.filter (key · = k)) (item : α) :
    item ∈ items ↔ item ∈ others := by
  have ofKey : ∀ list : List α, item ∈ list ↔ item ∈ list.filter (key · = key item) := by
    intro list
    simp
  rw [ofKey items, ofKey others, same]

theorem perm_of_filter_key_eq [DecidableEq α]
    (same : ∀ k, items.filter (key · = k) = others.filter (key · = k)) : items.Perm others := by
  rw [List.perm_iff_count]
  intro item
  have ofKey : ∀ list : List α, list.count item = (list.filter (key · = key item)).count item :=
    fun _ => (List.count_filter (by simp)).symm
  rw [ofKey items, ofKey others, same]

/-- Two tests take the same when the first that passes the one passes the other too. -/
theorem eraseP_eq_of_first {passes taken : α → Bool} (weaker : ∀ item, taken item → passes item)
    (isFirst : ∀ before item after, items = before ++ item :: after →
      (∀ other ∈ before, ¬ passes other = true) → passes item → taken item) :
    items.eraseP passes = items.eraseP taken := by
  induction items with
  | nil => rfl
  | cons item items ih =>
      by_cases isPassed : passes item
      · have isTaken : taken item := isFirst [] item items rfl (by simp) isPassed
        rw [List.eraseP_cons_of_pos isPassed, List.eraseP_cons_of_pos isTaken]
      · have notTaken : ¬ taken item = true := fun isTaken => isPassed (weaker item isTaken)
        rw [List.eraseP_cons_of_neg isPassed, List.eraseP_cons_of_neg notTaken, ih]
        intro before other after isSplit notBefore
        apply isFirst (item :: before) other after
        · rw [isSplit, List.cons_append]
        · exact List.forall_mem_cons.mpr ⟨isPassed, notBefore⟩

/-- When all that may be taken has one key, taking the first such leaves the first such out of
those of each key. -/
theorem filter_eraseP_of_key {taken : α → Bool}
    (oneKey : ∀ one ∈ items, ∀ other ∈ items, taken one → taken other → key one = key other)
    (k : κ) :
    (items.eraseP taken).filter (key · = k) = (items.filter (key · = k)).eraseP taken := by
  induction items with
  | nil => rfl
  | cons item items ih =>
      have later := ih fun one isOne other isOther =>
        oneKey one (List.mem_cons_of_mem _ isOne) other (List.mem_cons_of_mem _ isOther)
      by_cases isTaken : taken item
      · rw [List.eraseP_cons_of_pos isTaken]
        by_cases isKey : key item = k
        · rw [List.filter_cons_of_pos (by simpa using isKey), List.eraseP_cons_of_pos isTaken]
        · have noneTaken : ∀ other ∈ items.filter (key · = k), ¬ taken other = true := by
            intro other member otherTaken
            obtain ⟨isIn, otherKey⟩ := List.mem_filter.mp member
            have same := oneKey item List.mem_cons_self other (List.mem_cons_of_mem _ isIn)
              isTaken otherTaken
            exact isKey (same.trans (of_decide_eq_true otherKey))
          rw [List.filter_cons_of_neg (by simpa using isKey), List.eraseP_of_forall_not noneTaken]
      · rw [List.eraseP_cons_of_neg isTaken]
        by_cases isKey : key item = k
        · rw [List.filter_cons_of_pos (by simpa using isKey),
            List.filter_cons_of_pos (by simpa using isKey), List.eraseP_cons_of_neg isTaken, later]
        · rw [List.filter_cons_of_neg (by simpa using isKey),
            List.filter_cons_of_neg (by simpa using isKey), later]

/-- When no two have the same key, any order has the same ones of each key. -/
theorem filter_key_eq_of_perm (perm : items.Perm others) (nodup : (items.map key).Nodup) (k : κ) :
    items.filter (key · = k) = others.filter (key · = k) := by
  have sameOf : ∀ one other, one ∈ items.filter (key · = k) → other ∈ others.filter (key · = k) →
      True → True → one = other := by
    intro one other isOne isOther _ _
    obtain ⟨oneIn, oneKey⟩ := List.mem_filter.mp isOne
    obtain ⟨otherIn, otherKey⟩ := List.mem_filter.mp isOther
    have sameKey : key one = key other :=
      (of_decide_eq_true oneKey).trans (of_decide_eq_true otherKey).symm
    exact List.inj_on_of_nodup_map nodup oneIn (perm.mem_iff.mpr otherIn) sameKey
  have related : ∀ list : List α, list.Pairwise fun _ _ => True := fun _ =>
    List.pairwise_of_forall fun _ _ => trivial
  exact (perm.filter _).eq_of_pairwise sameOf (related _) (related _)

/-- Two sorted lists are the same when those of each key are the same in both. -/
theorem eq_of_filter_key_eq (sorted : items.Pairwise fun one other => key other ≤ key one)
    (otherSorted : others.Pairwise fun one other => key other ≤ key one)
    (same : ∀ k, items.filter (key · = k) = others.filter (key · = k)) : items = others := by
  induction items generalizing others with
  | nil =>
      symm
      apply List.eq_nil_iff_forall_not_mem.mpr
      intro item member
      cases (mem_iff_of_filter_key_eq same item).mpr member
  | cons item items ih =>
      have member := (mem_iff_of_filter_key_eq same item).mp List.mem_cons_self
      cases others with
      | nil => cases member
      | cons other others =>
          obtain ⟨below, sorted⟩ := List.pairwise_cons.mp sorted
          obtain ⟨otherBelow, otherSorted⟩ := List.pairwise_cons.mp otherSorted
          -- Each of the two first ones is in the other list, so their keys are equal.
          have sameKey : key item = key other := by
            apply le_antisymm
            · rcases List.mem_cons.mp member with isFirst | later
              · rw [isFirst]
              · exact otherBelow item later
            · have otherMember := (mem_iff_of_filter_key_eq same other).mpr List.mem_cons_self
              rcases List.mem_cons.mp otherMember with isFirst | later
              · rw [isFirst]
              · exact below other later
          have ofKey := same (key item)
          rw [List.filter_cons_of_pos (by simp), List.filter_cons_of_pos (by simp [sameKey])]
            at ofKey
          obtain ⟨isFirst, rest⟩ := List.cons.inj ofKey
          have later : ∀ k, items.filter (key · = k) = others.filter (key · = k) := by
            intro k
            by_cases isKey : key item = k
            · rw [← isKey, rest]
            · have ofOther := same k
              rwa [List.filter_cons_of_neg (by simpa using isKey),
                List.filter_cons_of_neg (by simpa [← sameKey] using isKey)] at ofOther
          rw [isFirst, ih sorted otherSorted later]

end

/-!
A ranking is told by the scores alone, so that it can be said of numbers that are not all in order:
only the scores of the items have to be.
-/

/-- The items with the greatest score first; those whose scores are alike stay in their order. -/
structure StablyRanked {α σ : Type} [LE σ] [DecidableLE σ] (score : α → σ)
    (items ranking : List α) : Prop where
  perm : ranking.Perm items
  ordered : ranking.Pairwise fun one other => score other ≤ score one
  stable : ∀ one ∈ items,
    ranking.filter (fun other => score other ≤ score one ∧ score one ≤ score other) =
      items.filter fun other => score other ≤ score one ∧ score one ≤ score other

/-- Sorting ranks items whose scores are in the order of some keys. -/
theorem stablyRanked_mergeSort_of_key {α σ κ : Type} [LE σ] [DecidableLE σ] [LinearOrder κ]
    {score : α → σ} (key : α → κ) {items : List α}
    (follows : ∀ one ∈ items, ∀ other ∈ items, score one ≤ score other ↔ key one ≤ key other) :
    StablyRanked score items
      (items.mergeSort fun one other => decide (score other ≤ score one)) := by
  have ranks : Ranks key fun one other => decide (key other ≤ key one) :=
    fun _ _ => decide_eq_true_iff
  have sameOrder : (items.mergeSort fun one other => decide (score other ≤ score one)) =
      items.mergeSort fun one other => decide (key other ≤ key one) := by
    have agree : ∀ one ∈ items, ∀ other ∈ items,
        decide (score other ≤ score one) = decide (key other ≤ key one) := by
      intro one isOne other isOther
      exact decide_eq_decide.mpr (follows other isOther one isOne)
    simpa using List.map_mergeSort (f := id) agree
  have perm := List.mergeSort_perm items fun one other => decide (key other ≤ key one)
  rw [sameOrder]
  refine ⟨perm, ?_, ?_⟩
  · apply (ranks.pairwise_mergeSort items).imp_of_mem
    intro one other isOne isOther ordered
    exact (follows other (perm.mem_iff.mp isOther) one (perm.mem_iff.mp isOne)).mpr ordered
  · intro one isOne
    have alike : ∀ other ∈ items,
        decide (score other ≤ score one ∧ score one ≤ score other) =
          decide (key other = key one) := by
      intro other isOther
      rw [decide_eq_decide, follows other isOther one isOne, follows one isOne other isOther]
      exact le_antisymm_iff.symm
    rw [List.filter_congr fun other member => alike other (perm.mem_iff.mp member),
      List.filter_congr alike]
    exact ranks.filter_mergeSort items (key one)

theorem stablyRanked_mergeSort {α κ : Type} [LinearOrder κ] (key : α → κ) (items : List α) :
    StablyRanked key items (items.mergeSort fun one other => decide (key other ≤ key one)) :=
  stablyRanked_mergeSort_of_key key fun _ _ _ _ => Iff.rfl

end ComponentAtlas
