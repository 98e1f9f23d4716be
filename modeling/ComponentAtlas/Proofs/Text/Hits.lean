/-
Module: ComponentAtlas.Proofs.Text.Hits
Purpose: The places at which a search finds something, and what it finds piece by piece.
Main exports:
  hits_complete, FindsApart, FindsApart.mem_hits, pairwise_hits, flatMap_hits_at, Yields,
  Yields.append, Yields.pass, Yields.hit
-/
import ComponentAtlas.Proofs.Text.Search

namespace ComponentAtlas.Text

variable {α : Type} {recognise : Recogniser α}

/-!
A search passes over what it took, so a place where the recogniser succeeds is a hit unless an
earlier hit reaches beyond it.
-/

section

variable {before : Option Char} {offset skip size : Nat} {text lead rest : List Char} {value : α}

/-- Where the recogniser succeeds there is a hit, or a hit before it takes that place. -/
theorem hitsFrom_complete (divided : text = lead ++ rest) (ne_nil : rest ≠ [])
    (reached : skip ≤ lead.length)
    (seen : recognise (lastOf lead before) rest = some (value, size)) :
    (offset + lead.length, value) ∈ hitsFrom recognise before offset skip text ∨
      ∃ front inner found taken, lead = front ++ inner ∧ inner ≠ [] ∧
        (offset + front.length, found) ∈ hitsFrom recognise before offset skip text ∧
        recognise (lastOf front before) (inner ++ rest) = some (found, taken) ∧
        inner.length < taken := by
  induction lead generalizing text before offset skip with
  | nil =>
      obtain rfl : skip = 0 := by simpa using reached
      obtain ⟨c, more, rfl⟩ := List.exists_cons_of_ne_nil ne_nil
      subst divided
      rw [lastOf_nil] at seen
      left
      simp [hitsFrom, seen]
  | cons c lead ih =>
      subst divided
      rw [lastOf_cons] at seen
      -- What holds of the search behind the first character holds of the whole.
      have behind : ∀ {later : Nat}, later ≤ lead.length →
          hitsFrom recognise (some c) (offset + 1) later (lead ++ rest) ⊆
            hitsFrom recognise before offset skip (c :: (lead ++ rest)) →
          (offset + (c :: lead).length, value) ∈
              hitsFrom recognise before offset skip (c :: (lead ++ rest)) ∨
            ∃ front inner found taken, c :: lead = front ++ inner ∧ inner ≠ [] ∧
              (offset + front.length, found) ∈
                hitsFrom recognise before offset skip (c :: (lead ++ rest)) ∧
              recognise (lastOf front before) (inner ++ rest) = some (found, taken) ∧
              inner.length < taken := by
        intro later reached within
        have count : ∀ length, offset + 1 + length = offset + (length + 1) := by omega
        rcases @ih (some c) (offset + 1) later _ rfl reached seen with hit | covered
        · rw [count] at hit
          exact .inl (within hit)
        · obtain ⟨front, inner, found, taken, rfl, inner_ne_nil, hit, earlier, reaches⟩ := covered
          rw [count] at hit
          refine .inr ⟨c :: front, inner, found, taken, rfl, inner_ne_nil, within hit, ?_, reaches⟩
          rw [lastOf_cons]
          exact earlier
      cases skip with
      | succ more => exact behind (Nat.le_of_succ_le_succ reached) fun _ member => member
      | zero =>
          cases here : recognise before (c :: (lead ++ rest)) with
          | none =>
              refine behind (Nat.zero_le _) fun hit member => ?_
              simpa only [hitsFrom, here] using member
          | some pair =>
              obtain ⟨found, taken⟩ := pair
              by_cases ends : taken - 1 ≤ lead.length
              · refine behind ends fun hit member => ?_
                simp only [hitsFrom, here]
                exact List.mem_cons_of_mem _ member
              · refine .inr ⟨[], c :: lead, found, taken, rfl, List.cons_ne_nil _ _, ?_, here, ?_⟩
                · simp [hitsFrom, here]
                · rw [List.length_cons]
                  omega

theorem hits_complete (ne_nil : rest ≠ [])
    (seen : recognise lead.getLast? rest = some (value, size)) :
    (lead.length, value) ∈ hits recognise (lead ++ rest) ∨
      ∃ front inner found taken, lead = front ++ inner ∧ inner ≠ [] ∧
        (front.length, found) ∈ hits recognise (lead ++ rest) ∧
        recognise front.getLast? (inner ++ rest) = some (found, taken) ∧
        inner.length < taken := by
  have complete := @hitsFrom_complete α recognise none 0 0 size (lead ++ rest) lead rest value rfl
    ne_nil (Nat.zero_le _) (by rwa [lastOf_none])
  simpa only [hits, lastOf_none, Nat.zero_add] using complete

/-- Nothing is found inside what was found. -/
def FindsApart (recognise : Recogniser α) : Prop :=
  ∀ {before : Option Char} {inner rest : List Char} {found : α} {taken : Nat},
    recognise before (inner ++ rest) = some (found, taken) → inner ≠ [] → inner.length < taken →
      recognise (lastOf inner before) rest = none

/-- When finds do not overlap, each place where the recogniser succeeds is a hit. -/
theorem FindsApart.mem_hits (apart : FindsApart recognise) (ne_nil : rest ≠ [])
    (seen : recognise lead.getLast? rest = some (value, size)) :
    (lead.length, value) ∈ hits recognise (lead ++ rest) := by
  rcases hits_complete ne_nil seen with hit | covered
  · exact hit
  · obtain ⟨front, inner, found, taken, rfl, inner_ne_nil, -, earlier, reaches⟩ := covered
    have none := apart earlier inner_ne_nil reaches
    rw [List.getLast?_append] at seen
    rw [lastOf, seen] at none
    cases none

end

/-!
Hits come in the order of their places, one at a place.
-/

section

variable {hit : Nat × α} {found : List (Nat × α)} {place : Nat}

theorem pairwise_hitsFrom (before : Option Char) (offset skip : Nat) (text : List Char) :
    (hitsFrom recognise before offset skip text).Pairwise fun one other => one.1 < other.1 := by
  induction text generalizing before offset skip with
  | nil => exact .nil
  | cons c text ih =>
      cases skip with
      | succ more => exact ih ..
      | zero =>
          cases here : recognise before (c :: text) with
          | none =>
              simp only [hitsFrom, here]
              exact ih ..
          | some pair =>
              simp only [hitsFrom, here, List.pairwise_cons]
              refine ⟨fun later member => ?_, ih ..⟩
              obtain ⟨lead, rest, size, -, place, -⟩ := mem_hitsFrom member
              omega

theorem pairwise_hits (recognise : Recogniser α) (text : List Char) :
    (hits recognise text).Pairwise fun one other => one.1 < other.1 :=
  pairwise_hitsFrom none 0 0 text

theorem filter_eq_singleton (ordered : found.Pairwise fun one other => one.1 < other.1)
    (member : hit ∈ found) : found.filter (·.1 = hit.1) = [hit] := by
  induction found with
  | nil => cases member
  | cons first found ih =>
      rw [List.pairwise_cons] at ordered
      rcases List.mem_cons.mp member with rfl | member
      · have others : found.filter (·.1 = hit.1) = [] := by
          refine List.filter_eq_nil_iff.mpr fun other isOther => ?_
          simpa using Nat.ne_of_gt (ordered.1 other isOther)
        rw [List.filter_cons, if_pos (by simp), others]
      · have earlier := ordered.1 hit member
        rw [List.filter_cons, if_neg (by simpa using Nat.ne_of_lt earlier), ih ordered.2 member]

/-- The finds up to a place are those before it and those at it. -/
theorem filter_lt_append_filter (ordered : found.Pairwise fun one other => one.1 < other.1)
    (limit : Nat) :
    found.filter (·.1 < limit) ++ found.filter (·.1 = limit) = found.filter (·.1 < limit + 1) := by
  induction found with
  | nil => rfl
  | cons first found ih =>
      rw [List.pairwise_cons] at ordered
      have rest := ih ordered.2
      rcases Nat.lt_trichotomy first.1 limit with below | same | above
      · have notHere : ¬ first.1 = limit := Nat.ne_of_lt below
        have upTo : first.1 < limit + 1 := Nat.lt_succ_of_lt below
        simp only [List.filter_cons, below, notHere, upTo, decide_true, decide_false, reduceIte,
          Bool.false_eq_true, List.cons_append, rest]
      · subst same
        have notBelow : ¬ first.1 < first.1 := Nat.lt_irrefl first.1
        have upTo : first.1 < first.1 + 1 := Nat.lt_succ_self first.1
        have none : found.filter (·.1 < first.1) = [] := by
          refine List.filter_eq_nil_iff.mpr fun other member => ?_
          have := ordered.1 other member
          simp only [decide_eq_true_eq]
          omega
        rw [none, List.nil_append] at rest
        simp only [List.filter_cons, notBelow, upTo, decide_true, decide_false, reduceIte,
          Bool.false_eq_true, none, List.nil_append, rest]
      · have notBelow : ¬ first.1 < limit := Nat.not_lt_of_lt above
        have notHere : ¬ first.1 = limit := Nat.ne_of_gt above
        have notUpTo : ¬ first.1 < limit + 1 := Nat.not_lt.mpr above
        simp only [List.filter_cons, notBelow, notHere, notUpTo, decide_false, reduceIte,
          Bool.false_eq_true, rest]

theorem flatMap_filter_eq (ordered : found.Pairwise fun one other => one.1 < other.1)
    (limit : Nat) :
    (List.range limit).flatMap (fun place => found.filter (·.1 = place)) =
      found.filter (·.1 < limit) := by
  induction limit with
  | zero => simp
  | succ limit ih =>
      rw [List.range_succ, List.flatMap_append, ih, List.flatMap_singleton]
      exact filter_lt_append_filter ordered limit

theorem lt_of_mem_hitsFrom {before : Option Char} {offset skip : Nat} {text : List Char}
    (member : hit ∈ hitsFrom recognise before offset skip text) :
    hit.1 < offset + text.length := by
  induction text generalizing before offset skip with
  | nil => cases member
  | cons c text ih =>
      have behind : ∀ {later : Nat}, hit ∈ hitsFrom recognise (some c) (offset + 1) later text →
          hit.1 < offset + (c :: text).length := by
        intro later member
        have := ih member
        rw [List.length_cons]
        omega
      cases skip with
      | succ more => exact behind member
      | zero =>
          cases here : recognise before (c :: text) with
          | none =>
              simp only [hitsFrom, here] at member
              exact behind member
          | some pair =>
              simp only [hitsFrom, here, List.mem_cons] at member
              rcases member with rfl | member
              · simp
              · exact behind member

/-- The hits of a search, place by place. -/
theorem flatMap_hits_at (recognise : Recogniser α) (text : List Char) :
    (List.range text.length).flatMap (fun place => (hits recognise text).filter (·.1 = place)) =
      hits recognise text := by
  rw [flatMap_filter_eq (pairwise_hits recognise text), List.filter_eq_self]
  intro hit member
  have := lt_of_mem_hitsFrom member
  simpa using this

end

/-!
A search goes through a text piece by piece.
-/

/-- In front of `rest` a search finds so much in the text, at places counted from the start of
the text, and goes on behind it. -/
def Yields (recognise : Recogniser α) (before : Option Char) (text : List Char)
    (found : List (Nat × α)) (rest : List Char) : Prop :=
  ∀ offset, hitsFrom recognise before offset 0 (text ++ rest) =
    found.map (fun hit => (offset + hit.1, hit.2)) ++
      hitsFrom recognise (lastOf text before) (offset + text.length) 0 rest

namespace Yields

variable {before : Option Char} {text more rest : List Char} {value : α}
  {found others : List (Nat × α)}

theorem append (first : Yields recognise before text found (more ++ rest))
    (second : Yields recognise (lastOf text before) more others rest) :
    Yields recognise before (text ++ more)
      (found ++ others.map fun hit => (text.length + hit.1, hit.2)) rest := by
  intro offset
  rw [List.append_assoc, first offset, second (offset + text.length), lastOf_append,
    List.length_append, List.map_append, List.map_map, List.append_assoc, Nat.add_assoc]
  simp only [Function.comp_def, Nat.add_assoc]

/-- Where nothing is found the search passes. -/
theorem pass (none : ∀ other c after, text = other ++ c :: after →
      recognise (lastOf other before) (c :: after ++ rest) = none) :
    Yields recognise before text [] rest := fun _ => hitsFrom_append none

theorem hit (ne_nil : text ≠ [])
    (seen : recognise before (text ++ rest) = some (value, text.length)) :
    Yields recognise before text [(0, value)] rest := fun _ => hitsFrom_hit ne_nil seen

end Yields

end ComponentAtlas.Text
