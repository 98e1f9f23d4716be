/-
Module: ComponentAtlas.Proofs.Category.Rules
Purpose: Whatever rules are added to a detector and removed from it, it holds those that are left,
  the highest priority first and equal ones in the order in which they were added.
Main exports:
  Change, Detector.run, survivors, AreRanked, areRanked_run, AreRanked.foldl_add
-/
import ComponentAtlas.Category.Detector
import ComponentAtlas.Proofs.Ranking

namespace ComponentAtlas.Category

/-- A change of the rules of a detector. -/
inductive Change (α : Type) where
  | add (rule : Rule α)
  | remove (name : String)
deriving Repr, DecidableEq

/-- The detector after one change. -/
def Detector.change {α : Type} [LE α] [DecidableLE α] (detector : Detector α) :
    Change α → Detector α
  | .add rule => detector.add rule
  | .remove name => (detector.remove name).1

/-- The detector after changes one after the other. -/
def Detector.run {α : Type} [LE α] [DecidableLE α] (detector : Detector α)
    (changes : List (Change α)) : Detector α :=
  changes.foldl Detector.change detector

section

variable {α : Type} [LinearOrder α]

/-- The rule has the name, and no other rule of that name has a higher priority. -/
def IsTop (rules : List (Rule α)) (name : String) (rule : Rule α) : Prop :=
  rule.name = name ∧ ∀ other ∈ rules, other.name = name → other.priority ≤ rule.priority

instance (rules : List (Rule α)) (name : String) : DecidablePred (IsTop rules name) :=
  fun _ => inferInstanceAs (Decidable (_ ∧ _))

/-- What is left of the rules, in the order in which they were added.  Of the rules of a name the
one of the highest priority is removed, and of several such the one that was added first. -/
def survive (rules : List (Rule α)) : Change α → List (Rule α)
  | .add rule => rules ++ [rule]
  | .remove name => rules.eraseP fun rule => IsTop rules name rule

/-- The rules that are left after changes, in the order in which they were added. -/
def survivors (initial : List (Rule α)) (changes : List (Change α)) : List (Rule α) :=
  changes.foldl survive initial

/-- The rules are the given ones with the highest priority first; those of one priority stand in
the order in which they were added. -/
structure AreRanked (added rules : List (Rule α)) : Prop where
  perm : rules.Perm added
  ordered : rules.Pairwise fun one other => other.priority ≤ one.priority
  stable : ∀ priority, rules.filter (·.priority = priority) = added.filter (·.priority = priority)

variable {added others rules : List (Rule α)}

namespace AreRanked

/-- Rules that are stably ordered are all of the given ones. -/
theorem of_stable (ordered : rules.Pairwise fun one other => other.priority ≤ one.priority)
    (stable : ∀ priority,
      rules.filter (·.priority = priority) = added.filter (·.priority = priority)) :
    AreRanked added rules where
  perm := perm_of_filter_key_eq stable
  ordered := ordered
  stable := stable

/-- There is only one way to rank rules. -/
theorem unique {one other : List (Rule α)} (isOne : AreRanked added one)
    (isOther : AreRanked others other)
    (same : ∀ priority,
      added.filter (·.priority = priority) = others.filter (·.priority = priority)) :
    one = other := by
  apply eq_of_filter_key_eq isOne.ordered isOther.ordered
  intro priority
  rw [isOne.stable, isOther.stable, same]

end AreRanked

/-!
Adding a rule sorts again, which leaves the ranked rules in their order.
-/

theorem ranks_priority :
    Ranks Rule.priority fun one other : Rule α => decide (other.priority ≤ one.priority) :=
  fun _ _ => decide_eq_true_iff

theorem areRanked_byPriority (rules : List (Rule α)) : AreRanked rules (byPriority rules) :=
  .of_stable (ranks_priority.pairwise_mergeSort rules) (ranks_priority.filter_mergeSort rules)

theorem AreRanked.add {detector : Detector α} (ranked : AreRanked added detector.rules)
    (rule : Rule α) : AreRanked (added ++ [rule]) (detector.add rule).rules := by
  have sorted : AreRanked (detector.rules ++ [rule]) (detector.add rule).rules :=
    areRanked_byPriority _
  apply AreRanked.of_stable sorted.ordered
  intro priority
  rw [sorted.stable, List.filter_append, List.filter_append, ranked.stable]

/-!
The first of the ranked rules of a name is the first top one, and so it is among the rules in the
order in which they were added.
-/

theorem AreRanked.isTop_iff (ranked : AreRanked added rules) (name : String) (rule : Rule α) :
    IsTop rules name rule ↔ IsTop added name rule := by
  have sameMembers : ∀ other, other ∈ rules ↔ other ∈ added := fun _ => ranked.perm.mem_iff
  simp only [IsTop, sameMembers]

theorem IsTop.priority_eq {name : String} {one other : Rule α} (isOne : IsTop rules name one)
    (isOther : IsTop rules name other) (oneIn : one ∈ rules) (otherIn : other ∈ rules) :
    one.priority = other.priority :=
  le_antisymm (isOther.2 one oneIn isOne.1) (isOne.2 other otherIn isOther.1)

/-- In ordered rules the first one of a name is a top one. -/
theorem eraseP_name_eq_eraseP_isTop
    (ordered : rules.Pairwise fun one other => other.priority ≤ one.priority) (name : String) :
    (rules.eraseP fun rule => rule.name = name) =
      rules.eraseP fun rule => IsTop rules name rule := by
  apply eraseP_eq_of_first
  · intro rule isTop
    exact decide_eq_true (of_decide_eq_true isTop).1
  · intro before rule after isSplit notBefore isNamed
    apply decide_eq_true
    refine ⟨of_decide_eq_true isNamed, ?_⟩
    intro other member otherNamed
    rw [isSplit] at ordered member
    rcases List.mem_append.mp member with isBefore | later
    · cases notBefore other isBefore (decide_eq_true otherNamed)
    · have fromRule := (List.pairwise_append.mp ordered).2.1
      rcases List.mem_cons.mp later with rfl | isAfter
      · exact le_rfl
      · exact (List.pairwise_cons.mp fromRule).1 other isAfter

theorem AreRanked.remove {detector : Detector α} (ranked : AreRanked added detector.rules)
    (name : String) :
    AreRanked (added.eraseP fun rule => IsTop added name rule) (detector.remove name).1.rules := by
  have isErased : (detector.remove name).1.rules =
      detector.rules.eraseP fun rule => IsTop added name rule := by
    simp only [← ranked.isTop_iff]
    exact eraseP_name_eq_eraseP_isTop ranked.ordered name
  have samePriority : ∀ one ∈ added, ∀ other ∈ added,
      decide (IsTop added name one) = true → decide (IsTop added name other) = true →
        one.priority = other.priority := by
    intro one oneIn other otherIn isOne isOther
    exact (of_decide_eq_true isOne).priority_eq (of_decide_eq_true isOther) oneIn otherIn
  -- Top rules of a name have one priority, so the first of them in the order of the detector is the
  -- first of them in the order in which they were added.
  rw [isErased]
  apply AreRanked.of_stable (ranked.ordered.sublist List.eraseP_sublist)
  intro priority
  rw [filter_eraseP_of_key samePriority, ← ranked.stable, filter_eraseP_of_key]
  intro one oneIn other otherIn
  exact samePriority one (ranked.perm.mem_iff.mp oneIn) other (ranked.perm.mem_iff.mp otherIn)

/-!
A run keeps the rules ranked.
-/

theorem AreRanked.change {detector : Detector α} (ranked : AreRanked added detector.rules)
    (change : Change α) : AreRanked (survive added change) (detector.change change).rules := by
  cases change with
  | add rule => exact ranked.add rule
  | remove name => exact ranked.remove name

theorem AreRanked.run {detector : Detector α} (ranked : AreRanked added detector.rules)
    (changes : List (Change α)) :
    AreRanked (survivors added changes) (detector.run changes).rules := by
  induction changes generalizing added detector with
  | nil => exact ranked
  | cons change changes ih => exact ih (ranked.change change)

theorem areRanked_run (initial : List (Rule α)) (changes : List (Change α)) :
    AreRanked (survivors initial changes) ((Detector.ofRules initial).run changes).rules :=
  (areRanked_byPriority initial).run changes

theorem AreRanked.foldl_add {detector : Detector α} (ranked : AreRanked added detector.rules)
    (rules : List (Rule α)) :
    AreRanked (added ++ rules) (rules.foldl Detector.add detector).rules := by
  induction rules generalizing added detector with
  | nil => simpa using ranked
  | cons rule rules ih => simpa using ih (ranked.add rule)

end

end ComponentAtlas.Category
