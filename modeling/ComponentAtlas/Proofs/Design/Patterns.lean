/-
Module: ComponentAtlas.Proofs.Design.Patterns
Purpose: The patterns of components are the signatures that occur most often, each told with all
  its occurrences.
Main exports:
  IsShape, Bears, Signed, signed_iff, IsRanking, isRanking_recurring, examplesOf_occurrences,
  patterns_eq_ranking
-/
import Mathlib.Data.List.Permutation
import Mathlib.Data.List.Sort
import Mathlib.Data.String.Basic
import ComponentAtlas.Design.Pattern
import ComponentAtlas.Proofs.Component.Dependencies
import ComponentAtlas.Proofs.Design.Tally
import ComponentAtlas.Proofs.Ranking

namespace ComponentAtlas.Design

/-!
What a component is counted under: one text for its shape, and one for each of its declarations.
-/

/-- The text tells the category of a component, the types of its props in the order of their
characters, and the number of its styles. -/
def IsShape (component : Component) (text : String) : Prop :=
  ∃ types : List String, types.Perm (component.props.map (·.type)) ∧ types.Pairwise (· ≤ ·) ∧
    text = component.category ++ ":props(" ++ ",".intercalate types ++ "):styles(" ++
      toString component.styles.length ++ ")"

/-- The text is the shape or a declaration of a component. -/
def Bears (component : Component) (text : String) : Prop :=
  IsShape component text ∨
    ∃ style ∈ component.styles, text = style.property ++ ":" ++ style.value

/-- The texts are those under which the components are counted: of each in turn its shape, and then
each of its declarations. -/
inductive Signed : List Component → List String → Prop
  | nil : Signed [] []
  | cons {component components shape texts} (isShape : IsShape component shape)
      (rest : Signed components texts) :
      Signed (component :: components)
        (shape :: component.styles.map (fun style => style.property ++ ":" ++ style.value) ++ texts)

section

variable {component : Component} {components : List Component} {text : String}
  {texts : List String}

/-- A list of texts is ordered in one way only, so a component has one shape. -/
theorem isShape_iff : IsShape component text ↔ text = signature component := by
  have ordered : ((component.props.map (·.type)).mergeSort
      fun one other => decide (one ≤ other)).Pairwise (· ≤ ·) := List.pairwise_mergeSort' _ _
  constructor
  · rintro ⟨types, isPerm, isOrdered, rfl⟩
    have same : types = (component.props.map (·.type)).mergeSort
        fun one other => decide (one ≤ other) := by
      apply List.Perm.eq_of_pairwise' isOrdered ordered
      exact isPerm.trans (List.mergeSort_perm _ _).symm
    rw [same]
    rfl
  · intro isSignature
    exact ⟨_, List.mergeSort_perm _ _, ordered, isSignature⟩

theorem bears_iff : Bears component text ↔ text ∈ signaturesOf component := by
  rw [Bears, isShape_iff, signaturesOf, List.mem_cons, List.mem_map]
  apply or_congr_right
  constructor
  · rintro ⟨style, member, rfl⟩
    exact ⟨style, member, rfl⟩
  · rintro ⟨style, member, rfl⟩
    exact ⟨style, member, rfl⟩

instance : DecidablePred (Bears component) := fun _ => decidable_of_iff _ bears_iff.symm

/-- Every list of components is counted under texts of its own, and under no others. -/
theorem signed_iff : Signed components texts ↔ texts = components.flatMap signaturesOf := by
  constructor
  · intro signed
    induction signed with
    | nil => rfl
    | cons isShape _ ih =>
        rw [isShape_iff.mp isShape, ih]
        rfl
  · rintro rfl
    induction components with
    | nil => exact .nil
    | cons component components ih => exact .cons (isShape_iff.mpr rfl) ih

end

/-- The signatures that occur more than once, the most frequent first, and those that occur equally
often in the order of their first occurrences. -/
structure IsRanking (texts ranking : List String) : Prop where
  mem_iff : ∀ text, text ∈ ranking ↔ 1 < texts.count text
  ordered : ranking.Pairwise fun one other =>
    texts.count other < texts.count one ∨
      texts.count one = texts.count other ∧ texts.idxOf one < texts.idxOf other

/-!
Counting and sorting leave the first occurrences in their order.
-/

section

variable {α : Type} [DecidableEq α]

theorem pairwise_idxOf_distinct (items : List α) :
    (distinct items).Pairwise fun one other => items.idxOf one < items.idxOf other := by
  induction items using List.reverseRecOn with
  | nil => exact .nil
  | append_singleton items item ih =>
      have earlier : (distinct items).Pairwise fun one other =>
          (items ++ [item]).idxOf one < (items ++ [item]).idxOf other := by
        apply ih.imp_of_mem
        intro one other isOne isOther less
        rw [List.idxOf_append_of_mem ((mem_distinct _ _).mp isOne),
          List.idxOf_append_of_mem ((mem_distinct _ _).mp isOther)]
        exact less
      rw [distinct_append_singleton]
      split
      case isTrue => exact earlier
      case isFalse unknown =>
        apply List.pairwise_append.mpr
        refine ⟨earlier, List.pairwise_singleton _ _, ?_⟩
        intro one isOne other isItem
        obtain rfl := List.mem_singleton.mp isItem
        have member : one ∈ items := (mem_distinct _ _).mp isOne
        have absent : other ∉ items := fun known => unknown ((mem_distinct _ _).mpr known)
        rw [List.idxOf_append_of_mem member, List.idxOf_append_of_notMem absent]
        have := List.idxOf_lt_length_of_mem member
        omega

/-- An item that comes several times in a row counts as if it came once. -/
theorem distinct_append_replicate (items : List α) (item : α) (more : Nat) :
    distinct (items ++ List.replicate (more + 1) item) = distinct (items ++ [item]) := by
  induction more with
  | zero => rfl
  | succ more ih =>
      have known : item ∈ distinct (items ++ List.replicate (more + 1) item) := by
        rw [mem_distinct]
        simp
      rw [List.replicate_succ', ← List.append_assoc, distinct_append_singleton, if_pos known, ih]

end

section

variable {texts : List String} {entry : String × Nat} {seen : List (String × String)}

theorem map_fst_occurrences (components : List Component) :
    (occurrences components).map (·.1) = components.flatMap signaturesOf := by
  rw [occurrences, List.map_flatMap]
  congr 1
  funext component
  rw [List.map_map]
  exact List.map_id _

theorem mem_recurring :
    entry ∈ recurring seen ↔
      entry.2 = (seen.map (·.1)).count entry.1 ∧ 1 < (seen.map (·.1)).count entry.1 := by
  obtain ⟨text, usage⟩ := entry
  rw [recurring, List.mem_mergeSort, List.mem_filter, foldl_countOne_eq, List.mem_map]
  constructor
  · rintro ⟨⟨name, -, isEntry⟩, often⟩
    cases isEntry
    exact ⟨rfl, of_decide_eq_true often⟩
  · rintro ⟨isCount, often⟩
    have member : text ∈ seen.map (·.1) := List.count_pos_iff.mp (Nat.lt_of_succ_lt often)
    obtain rfl : usage = (seen.map (·.1)).count text := isCount
    exact ⟨⟨text, (mem_distinct _ _).mpr member, rfl⟩, decide_eq_true often⟩

theorem isRanking_recurring (seen : List (String × String)) :
    IsRanking (seen.map (·.1)) ((recurring seen).map (·.1)) where
  mem_iff text := by
    rw [List.mem_map]
    constructor
    · rintro ⟨entry, member, rfl⟩
      exact (mem_recurring.mp member).2
    · intro often
      exact ⟨(text, (seen.map (·.1)).count text), mem_recurring.mpr ⟨rfl, often⟩, rfl⟩
  ordered := by
    have ranks : Ranks (fun entry : String × Nat => entry.2) fun one other =>
        decide (other.2 ≤ one.2) := fun one other => decide_eq_true_iff
    have counted : (((seen.map (·.1)).foldl Category.countOne []).filter
        fun entry => decide (1 < entry.2)).Pairwise fun one other =>
          (seen.map (·.1)).idxOf one.1 < (seen.map (·.1)).idxOf other.1 := by
      apply List.Pairwise.filter
      rw [foldl_countOne_eq, List.pairwise_map]
      exact pairwise_idxOf_distinct _
    rw [List.pairwise_map]
    apply (ranks.pairwise_mergeSort_of_pairwise counted).imp_of_mem
    intro one other isOne isOther isBefore
    rw [← (mem_recurring.mp isOne).1, ← (mem_recurring.mp isOther).1]
    exact isBefore

/-- The entries are the ranked signatures with the numbers of their occurrences. -/
theorem recurring_eq (seen : List (String × String)) :
    recurring seen =
      ((recurring seen).map (·.1)).map fun text => (text, (seen.map (·.1)).count text) := by
  have counted : ∀ entry ∈ recurring seen,
      (entry.1, (seen.map (·.1)).count entry.1) = id entry := by
    intro entry member
    exact Prod.ext rfl (mem_recurring.mp member).1.symm
  rw [List.map_map]
  exact (List.map_id _).symm.trans (List.map_congr_left counted).symm

/-!
Of several occurrences in one component only the first one adds an example.
-/

theorem namesOf_component (component : Component) (text : String) :
    (((signaturesOf component).map fun other => (other, component.name)).filter
      fun entry => entry.1 = text).map (·.2) =
        List.replicate ((signaturesOf component).count text) component.name := by
  rw [List.filter_map, List.map_map, List.count_eq_length_filter]
  exact List.map_const'

theorem distinct_namesOf (components : List Component) (text : String) :
    distinct (((occurrences components).filter fun entry => entry.1 = text).map (·.2)) =
      distinct
        ((components.filter fun component => text ∈ signaturesOf component).map (·.name)) := by
  induction components using List.reverseRecOn with
  | nil => rfl
  | append_singleton components component ih =>
      rw [occurrences, List.flatMap_append, ← occurrences, List.flatMap_singleton,
        List.filter_append, List.map_append, namesOf_component, List.filter_append, List.map_append]
      by_cases isIn : text ∈ signaturesOf component
      · obtain ⟨more, isCount⟩ := Nat.exists_eq_succ_of_ne_zero (List.count_pos_iff.mpr isIn).ne'
        rw [isCount, distinct_append_replicate, distinct_append_singleton, ih,
          ← distinct_append_singleton]
        simp [isIn]
      · rw [List.count_eq_zero.mpr isIn, List.replicate_zero, List.append_nil, ih]
        simp [isIn]

theorem examplesOf_occurrences (components : List Component) (text : String) :
    examplesOf (occurrences components) text =
      ((components.filter fun component => Bears component text).map (·.name)).eraseDups.take 3 := by
  rw [examplesOf, distinct_namesOf, distinct_eq_eraseDups, maxExamples]
  simp only [bears_iff]

end

/-- What is left out of a ranking occurs no more often than what it begins with. -/
theorem IsRanking.count_le_of_notMem_take {texts ranking : List String}
    (isRanking : IsRanking texts ranking) {size : Nat} {listed text : String}
    (isListed : listed ∈ ranking.take size) (isOmitted : text ∉ ranking.take size) :
    texts.count text ≤ texts.count listed := by
  by_cases isRanked : text ∈ ranking
  · have isLater : text ∈ ranking.drop size := by
      rw [← List.take_append_drop size ranking, List.mem_append] at isRanked
      exact isRanked.resolve_left isOmitted
    have ordered := isRanking.ordered
    rw [← List.take_append_drop size ranking] at ordered
    rcases (List.pairwise_append.mp ordered).2.2 listed isListed text isLater with less | ⟨same, -⟩
    · exact le_of_lt less
    · exact ge_of_eq same
  · have often := (isRanking.mem_iff listed).mp (List.mem_of_mem_take isListed)
    have rare : texts.count text ≤ 1 := by
      rw [isRanking.mem_iff] at isRanked
      exact Nat.le_of_not_lt isRanked
    exact le_trans rare (le_of_lt often)

/-- The patterns of components are the first twenty of the signatures that occur more than once,
ranked by their occurrences.  Each is told with all its occurrences and with the first three names
of components that bear it; no other signature occurs more often than one of them. -/
theorem patterns_eq_ranking (components : List Component) :
    ∃ texts ranking, Signed components texts ∧ IsRanking texts ranking ∧
      patterns components =
        (ranking.take 20).mapIdx (fun index text =>
          { name := "pattern-" ++ toString index
            text
            usage := texts.count text
            examples :=
              ((components.filter fun component => Bears component text).map
                (·.name)).eraseDups.take 3 }) ∧
      ∀ listed ∈ ranking.take 20, ∀ text, text ∉ ranking.take 20 →
        texts.count text ≤ texts.count listed := by
  have isRanking := isRanking_recurring (occurrences components)
  rw [map_fst_occurrences] at isRanking
  refine ⟨_, _, signed_iff.mpr rfl, isRanking, ?_, ?_⟩
  · conv_lhs => rw [patterns, recurring_eq, map_fst_occurrences, maxPatterns, ← List.map_take]
    rw [List.mapIdx_eq_zipIdx_map, List.mapIdx_eq_zipIdx_map, List.zipIdx_map, List.map_map]
    apply List.map_congr_left
    intro numbered _
    simp only [← examplesOf_occurrences]
    rfl
  · intro listed isListed text isOmitted
    exact isRanking.count_le_of_notMem_take isListed isOmitted

/-- A card whose color two of its styles have. -/
def plainCard : Component :=
  { name := "PlainCard"
    filePath := "/app/PlainCard.tsx"
    framework := reactNative
    props := [{ name := "title", type := "string", required := true },
      { name := "lines", type := "number", required := false }]
    styles := [{ property := "color", value := "red" }, { property := "padding", value := "8" },
      { property := "color", value := "red" }]
    usageExamples := []
    dependencies := []
    category := generalCategory
    lastModified := default }

/-- A card of the same shape, with its props in another order. -/
def openCard : Component :=
  { plainCard with
    name := "OpenCard"
    props := plainCard.props.reverse
    styles := [{ property := "padding", value := "4" }, { property := "color", value := "red" },
      { property := "margin", value := "4" }] }

/-- A badge in the color of the cards. -/
def badge : Component :=
  { plainCard with name := "Badge", props := [], styles := plainCard.styles.take 1 }

theorem signature_card (component : Component) (isGeneral : component.category = generalCategory)
    (isPerm : component.props.Perm plainCard.props) (isThree : component.styles.length = 3) :
    signature component = "general:props(number,string):styles(3)" := by
  have isShape : IsShape component "general:props(number,string):styles(3)" := by
    refine ⟨["number", "string"], ?_, by decide +kernel, ?_⟩
    · have swapped : ["number", "string"].Perm (plainCard.props.map (·.type)) := .swap ..
      exact swapped.trans (isPerm.map _).symm
    · rw [isGeneral, isThree]
      decide +kernel
  exact (isShape_iff.mp isShape).symm

/-- The color is counted twice in one card, which is named once; the shapes of the cards are one. -/
theorem patterns_twoCards :
    patterns [plainCard, openCard, badge] =
        [{ name := "pattern-0", text := "color:red", usage := 4
           examples := ["PlainCard", "OpenCard", "Badge"] },
          { name := "pattern-1", text := "general:props(number,string):styles(3)", usage := 2
            examples := ["PlainCard", "OpenCard"] }] ∧
      ∃ texts ranking, Signed [plainCard, openCard, badge] texts ∧ IsRanking texts ranking ∧
        (patterns [plainCard, openCard, badge]).length = (ranking.take 20).length := by
  constructor
  · have isPlain : signature plainCard = "general:props(number,string):styles(3)" :=
      signature_card plainCard rfl (.refl _) rfl
    have isOpen : signature openCard = "general:props(number,string):styles(3)" :=
      signature_card openCard rfl (List.reverse_perm _) rfl
    have isBadge : signature badge = "general:props():styles(1)" := by
      apply Eq.symm
      rw [← isShape_iff]
      exact ⟨[], .refl _, .nil, by decide +kernel⟩
    rw [patterns, occurrences]
    simp only [List.flatMap_cons, List.flatMap_nil, signaturesOf, isPlain, isOpen, isBadge]
    cbv
  · obtain ⟨texts, ranking, signed, isRanking, isPatterns, -⟩ :=
      patterns_eq_ranking [plainCard, openCard, badge]
    exact ⟨texts, ranking, signed, isRanking, by rw [isPatterns, List.length_mapIdx]⟩

end ComponentAtlas.Design
