/-
Module: ComponentAtlas.Proofs.Catalog.Description
Purpose: What the matches of a description tell: their scores, and when they tell a reason and
  that the text matches in part.
Main exports:
  Tells, textScore_eq, textScore_lt_one_iff, reasonsFor_eq_nil_iff, partial_mem_reasonsFor_iff,
  matching_explained
-/
import Mathlib.Data.List.Infix
import ComponentAtlas.Catalog.Description
import ComponentAtlas.Proofs.Path.Exclusion
import ComponentAtlas.Proofs.Ranking
import ComponentAtlas.Proofs.Similarity.Score
import ComponentAtlas.Proofs.Text.Lines
import ComponentAtlas.Proofs.Text.Words

namespace ComponentAtlas.Description

open ComponentAtlas.Text
open ComponentAtlas.Similarity

/-- The text stands in the name or in the description of a component. -/
def Tells (component : Component) (text : List Char) : Prop :=
  text <:+: nameText component ∨ text <:+: descriptionText component

instance (component : Component) : DecidablePred (Tells component) :=
  fun _ => inferInstanceAs (Decidable (_ ∨ _))

section

variable {request : Request} {component : Component} {word : List Char}

theorem mentions_iff : mentions request component ↔ Tells component request.phrase := by
  rw [mentions, Bool.or_eq_true, Path.occursIn_iff_isInfix, Path.occursIn_iff_isInfix]
  rfl

/-- No word reaches over the space between name and description. -/
theorem occursIn_iff_tells (isWord : ∀ c ∈ word, isBlank c = false) :
    occursIn word (nameText component ++ [' '] ++ descriptionText component) ↔
      Tells component word := by
  have absent : ' ' ∉ word := by
    intro member
    cases isWord ' ' member
  rw [Path.occursIn_iff_isInfix, List.append_assoc, List.singleton_append,
    isInfix_append_cons_iff absent]
  rfl

/-- The words of the phrase that stand in the name or in the description. -/
theorem wordHits_eq (request : Request) (component : Component) :
    wordHits request component = (words request.phrase).countP (Tells component ·) := by
  unfold wordHits
  apply List.countP_congr
  intro word member
  rw [occursIn_iff_tells (mem_words member).2, decide_eq_true_iff]

end

/-!
The score of the text, in exact arithmetic.
-/

section

variable (request : Request) (component : Component)

theorem textScore_eq :
    textScore (Nat.cast : Nat → ℚ) request component =
      if Tells component request.phrase then 1
      else share Nat.cast ((words request.phrase).countP (Tells component ·))
        (words request.phrase).length := by
  have noShare : (words request.phrase).length = 0 →
      share (Nat.cast : Nat → ℚ) ((words request.phrase).countP (Tells component ·))
        (words request.phrase).length = 0 := by
    intro noWords
    rw [noWords, share, Nat.cast_zero, div_zero]
  unfold textScore
  simp only [mentions_iff, wordHits_eq]
  split
  case isTrue => norm_num
  case isFalse =>
    split
    case isTrue noWords => rw [noShare noWords]; norm_num
    case isFalse => rfl

theorem textScore_le_one : textScore (Nat.cast : Nat → ℚ) request component ≤ 1 := by
  rw [textScore_eq]
  split
  · exact le_rfl
  · exact (share_mem_Icc List.countP_le_length).2

theorem textScore_pos_iff :
    0 < textScore (Nat.cast : Nat → ℚ) request component ↔
      Tells component request.phrase ∨ ∃ word ∈ words request.phrase, Tells component word := by
  rw [textScore_eq]
  split
  case isTrue told => simp [told]
  case isFalse notTold =>
    rw [share_pos_iff List.countP_le_length, List.countP_pos_iff]
    simp [notTold]

/-- A positive score of the text is less than one when neither the whole phrase nor each of its
words is told. -/
theorem textScore_lt_one_iff (positive : 0 < textScore (Nat.cast : Nat → ℚ) request component) :
    textScore (Nat.cast : Nat → ℚ) request component < 1 ↔
      ¬ Tells component request.phrase ∧
        ∃ word ∈ words request.phrase, ¬ Tells component word := by
  have someWord := (textScore_pos_iff request component).mp positive
  rw [textScore_eq]
  split
  case isTrue told => simp [told]
  case isFalse notTold =>
    obtain ⟨word, member, -⟩ := someWord.resolve_left notTold
    have notAll : (words request.phrase).countP (Tells component ·) <
        (words request.phrase).length ↔ ∃ word ∈ words request.phrase, ¬ Tells component word := by
      rw [List.countP_le_length.lt_iff_ne, Ne, List.countP_eq_length]
      simp
    rw [share_lt_one_iff (List.length_pos_of_mem member), notAll]
    simp [notTold]

theorem score_eq :
    score (Nat.cast : Nat → ℚ) request component =
      if request.props = [] then textScore Nat.cast request component
      else
        textScore Nat.cast request component * (7 / 10) +
          share Nat.cast (propsThat true request component).length request.props.length *
            (3 / 10) := by
  unfold score
  simp only [List.isEmpty_iff]
  norm_num

/-- With and without props the score is positive and at most one, as that of the text is. -/
theorem score_mem_Ioc (positive : 0 < textScore (Nat.cast : Nat → ℚ) request component) :
    score (Nat.cast : Nat → ℚ) request component ∈ Set.Ioc 0 1 := by
  have atMost := textScore_le_one request component
  have fewer : (propsThat true request component).length ≤ request.props.length :=
    List.length_filter_le _ _
  obtain ⟨low, high⟩ := share_mem_Icc fewer
  rw [score_eq, Set.mem_Ioc]
  split
  case isTrue => exact ⟨positive, atMost⟩
  case isFalse => constructor <;> linarith

end

/-!
The reasons.  Each kind of them starts with a text of its own.
-/

section

variable {request : Request} {component : Component} {percent : ℚ → String}

theorem lineIf_eq_nil_iff {condition : Bool} {line : String} :
    lineIf condition line = [] ↔ condition = false := by
  cases condition <;> simp [lineIf]

theorem listing_eq_nil_iff {label : String} {names : List String} :
    listing label names = [] ↔ names = [] := by
  cases names <;> simp [listing]

theorem reasonsFor_eq_nil_iff :
    reasonsFor Nat.cast percent request component = [] ↔
      ¬ Tells component request.phrase ∧ propsThat true request component = [] ∧
        ¬ textScore (Nat.cast : Nat → ℚ) request component < 1 := by
  have one : (1.0 : ℚ) = 1 := by norm_num
  rw [reasonsFor, List.append_eq_nil_iff, List.append_eq_nil_iff, List.append_eq_nil_iff,
    lineIf_eq_nil_iff, lineIf_eq_nil_iff, lineIf_eq_nil_iff, listing_eq_nil_iff, one,
    decide_eq_false_iff_not, Tells, ← Path.occursIn_iff_isInfix, ← Path.occursIn_iff_isInfix,
    not_or, Bool.not_eq_true, Bool.not_eq_true, and_assoc]

theorem mem_lineIf {condition : Bool} {line reason : String} :
    reason ∈ lineIf condition line ↔ condition ∧ reason = line := by
  cases condition <;> simp [lineIf]

theorem mem_listing {label reason : String} {names : List String} :
    reason ∈ listing label names ↔ names ≠ [] ∧ reason = label ++ listed names := by
  cases names <;> simp [listing]

/-- Only the last kind of reason tells that the text matches in part. -/
theorem partial_mem_reasonsFor_iff :
    (∃ share, "Partial text match (" ++ share ∈ reasonsFor Nat.cast percent request component) ↔
      textScore (Nat.cast : Nat → ℚ) request component < 1 := by
  have one : (1.0 : ℚ) = 1 := by norm_num
  have differs : ∀ {start : String} (rest : String), start.toList.head? ≠ some 'P' →
      start.toList ≠ [] → ∀ share, "Partial text match (" ++ share ≠ start ++ rest := by
    intro start rest head ne_nil share same
    have chars := congrArg (·.toList.head?) same
    obtain ⟨c, others, isStart⟩ := List.exists_cons_of_ne_nil ne_nil
    exact head (by simpa [isStart, eq_comm] using chars)
  simp only [reasonsFor, List.mem_append, mem_lineIf, mem_listing, decide_eq_true_eq, one]
  constructor
  · rintro ⟨share, ((⟨-, isName⟩ | ⟨-, isDescription⟩) | ⟨-, areProps⟩) | ⟨less, -⟩⟩
    · exact absurd (isName.trans (String.append_empty).symm)
        (differs _ (by decide) (by decide) share)
    · exact absurd (isDescription.trans (String.append_empty).symm)
        (differs _ (by decide) (by decide) share)
    · exact absurd areProps (differs _ (by decide) (by decide) share)
    · exact less
  · intro less
    exact ⟨_, .inr ⟨less, String.append_assoc.symm⟩⟩

end

/-- The match of a component that a request finds. -/
def matchFor (percent : ℚ → String) (request : Request) (component : Component) : Match ℚ :=
  { component
    similarity := score Nat.cast request component
    reasons := reasonsFor Nat.cast percent request component
    differences := listing "Missing props: " (propsThat false request component) }

/-- A component is found when the phrase or one of its words is told. -/
def IsFound (request : Request) (component : Component) : Prop :=
  Tells component request.phrase ∨ ∃ word ∈ words request.phrase, Tells component word

instance (request : Request) : DecidablePred (IsFound request) :=
  fun _ => inferInstanceAs (Decidable (_ ∨ _))

theorem matchOf?_eq (percent : ℚ → String) (request : Request) (component : Component) :
    matchOf? Nat.cast percent request component =
      if IsFound request component then some (matchFor percent request component) else none := by
  have zero : (0.0 : ℚ) = 0 := by norm_num
  rw [matchOf?, zero]
  by_cases isFound : IsFound request component
  · have positive := (textScore_pos_iff request component).mpr isFound
    rw [if_neg (not_le.mpr positive), if_pos isFound]
    rfl
  · have notPositive := mt (textScore_pos_iff request component).mp isFound
    rw [if_pos (not_lt.mp notPositive), if_neg isFound]

/-- The matches of a request are those of the components that it finds, sorted by their scores. -/
theorem matchingWith_eq (percent : ℚ → String) (request : Request) (components : List Component) :
    matchingWith Nat.cast percent request components =
      ((components.filter (IsFound request ·)).mergeSort fun one other =>
        decide (score (Nat.cast : Nat → ℚ) request other ≤ score Nat.cast request one)).map
          (matchFor percent request) := by
  have found : components.filterMap (matchOf? Nat.cast percent request) =
      (components.filter (IsFound request ·)).map (matchFor percent request) := by
    rw [← List.filterMap_eq_map, List.filterMap_filter]
    apply List.filterMap_congr
    intro component _
    simp [matchOf?_eq]
  rw [matchingWith, found, List.map_mergeSort]
  intro one _ other _
  rfl

theorem mem_matchingWith {percent : ℚ → String} {request : Request} {components : List Component}
    {found : Match ℚ} :
    found ∈ matchingWith Nat.cast percent request components ↔
      ∃ component ∈ components, IsFound request component ∧
        matchFor percent request component = found := by
  simp [matchingWith_eq, and_assoc]

theorem stablyRanked_matchingWith (percent : ℚ → String) (request : Request)
    (components : List Component) :
    StablyRanked (score (Nat.cast : Nat → ℚ) request) (components.filter (IsFound request ·))
      ((matchingWith Nat.cast percent request components).map (·.component)) := by
  have ranked := stablyRanked_mergeSort (score (Nat.cast : Nat → ℚ) request)
    (components.filter (IsFound request ·))
  rw [matchingWith_eq, List.map_map]
  simpa only [Function.comp_def, matchFor, List.map_id'] using ranked

/-- In exact arithmetic a request finds the components in whose name or description the whole
phrase or one of its words stands, the best first, and every match has a score above zero and at
most one.  A match tells that the text matches in part when the whole phrase stands in neither and
one of its words in neither.  So it tells no reason at all when the phrase stands in neither, all
of its words stand in one of them, and the component has no wanted prop. -/
theorem matching_explained (percent : ℚ → String) (description : String) (props : List String)
    (components : List Component) :
    let phrase := lower description.toList
    let request := Request.of description props
    let found := matchingWith Nat.cast percent request components
    StablyRanked (score (Nat.cast : Nat → ℚ) request)
        (components.filter fun component =>
          Tells component phrase ∨ ∃ word ∈ words phrase, Tells component word)
        (found.map (·.component)) ∧
      ∀ one ∈ found,
        0 < one.similarity ∧ one.similarity ≤ 1 ∧
          ((∃ share, "Partial text match (" ++ share ∈ one.reasons) ↔
            ¬ Tells one.component phrase ∧ ∃ word ∈ words phrase, ¬ Tells one.component word) ∧
          (one.reasons = [] ↔
            ¬ Tells one.component phrase ∧ (∀ word ∈ words phrase, Tells one.component word) ∧
              ∀ prop ∈ props, prop ≠ "" → prop ∉ one.component.props.map (·.name)) := by
  intro phrase request found
  constructor
  · exact stablyRanked_matchingWith percent request components
  · intro one member
    obtain ⟨component, -, isFound, rfl⟩ := mem_matchingWith.mp member
    have positive := (textScore_pos_iff request component).mpr isFound
    obtain ⟨low, high⟩ := score_mem_Ioc request component positive
    have isPartial := textScore_lt_one_iff request component positive
    refine ⟨low, high, partial_mem_reasonsFor_iff.trans isPartial, ?_⟩
    have noProps : propsThat true request component = [] ↔
        ∀ prop ∈ props, prop ≠ "" → prop ∉ component.props.map (·.name) := by
      rw [propsThat, List.filter_eq_nil_iff]
      simp only [request, Request.of, List.mem_filter, Bool.not_eq_true',
        String.isEmpty_eq_false_iff, decide_eq_true_eq, and_imp]
    change reasonsFor Nat.cast percent request component = [] ↔ _
    rw [reasonsFor_eq_nil_iff, isPartial, noProps]
    constructor
    · rintro ⟨notTold, hasNone, notPartial⟩
      refine ⟨notTold, fun word isWord => ?_, hasNone⟩
      by_contra missing
      exact notPartial ⟨notTold, word, isWord, missing⟩
    · rintro ⟨notTold, allTold, hasNone⟩
      refine ⟨notTold, hasNone, ?_⟩
      rintro ⟨-, word, isWord, missing⟩
      exact missing (allTold word isWord)

def titleCard : Component :=
  { (default : Component) with name := "Card", description := some "Shows a title" }

/-- One word stands in the name and the other in the description: the match has the full score and
no reason. -/
theorem matching_explained_titleCard :
    let request := Request.of "card title" []
    let one := matchFor (fun _ => "") request titleCard
    one ∈ matchingWith Nat.cast (fun _ => "") request [titleCard] ∧
      0 < one.similarity ∧ one.similarity ≤ 1 ∧
      (¬ ∃ share, "Partial text match (" ++ share ∈ one.reasons) ∧ one.reasons = [] := by
  intro request one
  have notTold : ¬ Tells titleCard request.phrase := by decide +kernel
  have allTold : ∀ word ∈ words request.phrase, Tells titleCard word := by decide +kernel
  have isFound : IsFound request titleCard := by decide +kernel
  have member : one ∈ matchingWith Nat.cast (fun _ => "") request [titleCard] :=
    mem_matchingWith.mpr ⟨titleCard, List.mem_singleton_self _, isFound, rfl⟩
  obtain ⟨-, explained⟩ := matching_explained (fun _ => "") "card title" [] [titleCard]
  obtain ⟨low, high, isPartial, noReason⟩ := explained one member
  refine ⟨member, low, high, ?_, noReason.mpr ⟨notTold, allTold, by simp⟩⟩
  rw [isPartial]
  rintro ⟨-, word, isWord, missing⟩
  exact missing (allTold word isWord)

/-- Scores in floats make no difference here. -/
example : (matching (.of "card title" []) [titleCard]).map (·.reasons) = [[]] := by decide +kernel

end ComponentAtlas.Description
