/-
Module: ComponentAtlas.Proofs.Cache.History
Purpose: What the history of a run says: what still stands, and which keys were used
  longest ago.
Main exports:
  StandsSince, standsSince_append, LastBefore, lastBefore_append, AreOldest,
  AreOldest.mem_iff, AreOldest.last_notMem
-/
import Mathlib.Data.List.Induction
import Mathlib.Data.List.Perm.Subperm

namespace ComponentAtlas.Cache

section Standing

variable {α : Type} {starts : α → Prop} {ends : List α → α → Prop} {acts : List α} {act : α}

/-- Some act of a history brought something about, and no later act ended it.  Whether an
act ends it may depend on the acts before. -/
def StandsSince (starts : α → Prop) (ends : List α → α → Prop) (acts : List α) : Prop :=
  ∃ before first after, acts = before ++ first :: after ∧ starts first ∧
    ∀ done act rest, after = done ++ act :: rest → ¬ends (before ++ first :: done) act

theorem not_standsSince_nil : ¬StandsSince starts ends [] := by
  rintro ⟨before, first, after, split, -⟩
  simp at split

/-- What stands after one more act was brought about by it, or stood before and was not
ended by it. -/
theorem standsSince_append :
    StandsSince starts ends (acts ++ [act]) ↔
      starts act ∨ (StandsSince starts ends acts ∧ ¬ends acts act) := by
  constructor
  · rintro ⟨before, first, after, split, isStart, stays⟩
    rcases List.eq_nil_or_concat after with rfl | ⟨after, last, rfl⟩
    · obtain ⟨-, isLast⟩ := List.append_inj' split rfl
      cases isLast
      exact .inl isStart
    · rw [List.concat_eq_append] at split stays
      rw [← List.cons_append, ← List.append_assoc] at split
      obtain ⟨rfl, isLast⟩ := List.append_inj' split rfl
      cases isLast
      refine .inr ⟨⟨before, first, after, rfl, isStart, ?_⟩, stays after act [] rfl⟩
      rintro done next rest rfl
      exact stays done next (rest ++ [act]) (by simp)
  · rintro (isStart | ⟨⟨before, first, after, rfl, isStart, stays⟩, notEnded⟩)
    · exact ⟨acts, act, [], rfl, isStart, by simp⟩
    · refine ⟨before, first, after ++ [act], by simp, isStart, ?_⟩
      intro done next rest split
      rcases List.eq_nil_or_concat rest with rfl | ⟨rest, last, rfl⟩
      · obtain ⟨rfl, isLast⟩ := List.append_inj' split rfl
        cases isLast
        exact notEnded
      · rw [List.concat_eq_append, ← List.cons_append, ← List.append_assoc] at split
        obtain ⟨rfl, -⟩ := List.append_inj' split rfl
        exact stays done next rest rfl

end Standing

/-!
What a cache forgets first depends on the last use of each key alone.  The uses of all
keys form one list, in the order of the operations, whatever a clock says.
-/

variable {used keys : List String} {key other next : String}

/-- The last use of a key comes before that of another one: behind it the other key is
used, and the key itself is not. -/
def LastBefore (used : List String) (key other : String) : Prop :=
  ∃ before after, used = before ++ key :: after ∧ key ∉ after ∧ other ∈ after

theorem not_lastBefore_nil : ¬LastBefore [] key other := by
  rintro ⟨before, after, split, -⟩
  simp at split

/-- A key that was used has a last use. -/
theorem exists_last_use (member : key ∈ used) :
    ∃ before after, used = before ++ key :: after ∧ key ∉ after := by
  induction used with
  | nil => cases member
  | cons first rest ih =>
      by_cases later : key ∈ rest
      · obtain ⟨before, after, rfl, free⟩ := ih later
        exact ⟨first :: before, after, rfl, free⟩
      · rcases List.mem_cons.mp member with rfl | inRest
        · exact ⟨[], rest, rfl, later⟩
        · exact absurd inRest later

/-- One more use puts its key behind all others. -/
theorem lastBefore_append :
    LastBefore (used ++ [next]) key other ↔
      key ≠ next ∧ (LastBefore used key other ∨ key ∈ used ∧ other = next) := by
  constructor
  · rintro ⟨before, after, split, free, member⟩
    rcases List.eq_nil_or_concat after with rfl | ⟨after, last, rfl⟩
    · cases member
    · rw [List.concat_eq_append] at split free member
      rw [← List.cons_append, ← List.append_assoc] at split
      obtain ⟨rfl, isLast⟩ := List.append_inj' split rfl
      cases isLast
      simp only [List.mem_append, List.mem_singleton, not_or] at free member
      refine ⟨free.2, ?_⟩
      rcases member with old | isNext
      · exact .inl ⟨before, after, rfl, free.1, old⟩
      · exact .inr ⟨by simp, isNext⟩
  · rintro ⟨ne, ⟨before, after, rfl, free, member⟩ | ⟨member, rfl⟩⟩
    · exact ⟨before, after ++ [next], by simp, by simp [free, ne], by simp [member]⟩
    · obtain ⟨before, after, rfl, free⟩ := exists_last_use member
      exact ⟨before, after ++ [other], by simp, by simp [free, ne], by simp⟩

theorem not_lastBefore_self : ¬LastBefore used key key := by
  rintro ⟨before, after, -, free, member⟩
  exact free member

/-- Of two keys only one was used last before the other. -/
theorem LastBefore.asymm (isBefore : LastBefore used key other) : ¬LastBefore used other key := by
  induction used using List.reverseRecOn with
  | nil => exact fun _ => not_lastBefore_nil isBefore
  | append_singleton used next ih =>
      intro isAfter
      obtain ⟨keyNe, before | ⟨-, isNext⟩⟩ := lastBefore_append.mp isBefore
      · obtain ⟨-, after | ⟨-, isNext⟩⟩ := lastBefore_append.mp isAfter
        · exact ih before after
        · exact keyNe isNext
      · exact (lastBefore_append.mp isAfter).1 isNext

/-- As many of the keys as are asked for, each of which was last used before all
others. -/
structure AreOldest (used keys : List String) (count : Nat) (oldest : List String) : Prop where
  distinct : oldest.Nodup
  counted : oldest.length = count
  areKeys : oldest ⊆ keys
  before : ∀ old ∈ oldest, ∀ other ∈ keys, other ∉ oldest → LastBefore used old other

namespace AreOldest

variable {count : Nat} {oldest : List String}

/-- The oldest keys depend only on which keys there are. -/
theorem congr {others : List String} (areOldest : AreOldest used keys count oldest)
    (same : ∀ key, key ∈ keys ↔ key ∈ others) : AreOldest used others count oldest where
  distinct := areOldest.distinct
  counted := areOldest.counted
  areKeys key member := (same key).mp (areOldest.areKeys member)
  before old isOld other isKey := areOldest.before old isOld other ((same other).mpr isKey)

/-- A key that is missing in a list without repetitions is made up for in one of the same
length. -/
theorem exists_notMem {left right : List String} (distinct : right.Nodup)
    (sameLength : left.length = right.length) (member : key ∈ left) (notMem : key ∉ right) :
    ∃ other ∈ right, other ∉ left := by
  by_contra none
  push Not at none
  have within : right.Subperm left := List.subperm_of_subset distinct none
  exact notMem ((within.perm_of_length_le (Nat.le_of_eq sameLength)).mem_iff.mpr member)

/-- The oldest keys are determined by their number. -/
theorem mem_iff {others : List String} (areOldest : AreOldest used keys count oldest)
    (areToo : AreOldest used keys count others) : key ∈ oldest ↔ key ∈ others := by
  suffices within : ∀ {left right : List String}, AreOldest used keys count left →
      AreOldest used keys count right → key ∈ left → key ∈ right from
    ⟨within areOldest areToo, within areToo areOldest⟩
  intro left right isLeft isRight member
  by_contra notMem
  obtain ⟨other, inRight, notLeft⟩ := exists_notMem isRight.distinct
    (isLeft.counted.trans isRight.counted.symm) member notMem
  have isBefore := isLeft.before key member other (isRight.areKeys inRight) notLeft
  exact isBefore.asymm (isRight.before other inRight key (isLeft.areKeys member) notMem)

/-- The key that was used last is none of the oldest ones, as long as these are not all. -/
theorem last_notMem (areOldest : AreOldest (used ++ [key]) keys count oldest)
    (distinct : keys.Nodup) (fewer : count < keys.length) : key ∉ oldest := by
  intro member
  have notAll : ¬keys ⊆ oldest := by
    intro all
    have bound := (List.subperm_of_subset distinct all).length_le
    rw [areOldest.counted] at bound
    omega
  obtain ⟨other, isKey, notOldest⟩ : ∃ other ∈ keys, other ∉ oldest := by
    simpa [List.subset_def] using notAll
  exact (lastBefore_append.mp (areOldest.before key member other isKey notOldest)).1 rfl

end AreOldest

end ComponentAtlas.Cache
