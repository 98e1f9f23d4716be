/-
Module: ComponentAtlas.Proofs.Source.Place
Purpose: Where the pass over a text with a stack of open frames ends, as an index of the
  text.
Main exports:
  index_induction, endAt, endAt_single, endAt_pair, endAt_stop, endAt_over,
  endAt_lineComment, endAt_blockComment, commentEnd?_eq_some, endAt_comment
-/
import ComponentAtlas.Proofs.Source.Depth
import ComponentAtlas.Proofs.Source.Loop

namespace ComponentAtlas.Source

/-- Whatever follows for an index from the later ones holds for every index: the later ones
matter only while the text goes on. -/
@[elab_as_elim]
theorem index_induction {motive : Nat → Prop} (text : List Char)
    (step : ∀ index, (∀ later, index < later → index < text.length → motive later) →
      motive index) (index : Nat) : motive index := by
  induction left : text.length - index using Nat.strong_induction_on generalizing index with
  | _ left ih =>
      refine step index fun later isLater inText => ?_
      exact ih (text.length - later) (by omega) later rfl

/-- The index behind the last one of the open frames, when the pass comes to an index with
these frames open; `none` when one of them is never closed. -/
def endAt (frames : List Frame) (text : List Char) (index : Nat) : Option Nat :=
  (closing frames false (text.drop index)).map (index + ·)

section

variable {text : List Char} {index : Nat} {c : Char} {frame base : Frame}
  {below after frames : List Frame} {count : Nat}

theorem drop_of_getElem? (here : text[index]? = some c) :
    text.drop index = c :: text.drop (index + 1) := by
  obtain ⟨inText, rfl⟩ := List.getElem?_eq_some_iff.mp here
  exact List.drop_eq_getElem_cons inText

theorem literalEnd?_here {quote : Char} (here : text[index]? = some quote) :
    literalEnd? text index = some (index + 1 + literalLength quote (text.drop (index + 1))) := by
  rw [literalEnd?, drop_of_getElem? here]

theorem bracketEnd?_here (here : text[index]? = some c) (opens : isOpener c) :
    bracketEnd? text index = (groupLength? (text.drop (index + 1))).map (index + 1 + ·) := by
  rw [bracketEnd?, drop_of_getElem? here]
  exact if_pos opens

theorem map_pass (index count : Nat) (later : Option Nat) :
    (pass count later).map (index + ·) = later.map (index + count + ·) := by
  cases later with
  | none => rfl
  | some answer => exact congrArg some (by dsimp only; omega)

theorem endAt_nil (text : List Char) (index : Nat) : endAt [] text index = some index := by
  simp [endAt, closing]

theorem endAt_past (isPast : text.length ≤ index) : endAt (frame :: below) text index = none := by
  rw [endAt, List.drop_eq_nil_of_le isPast]
  rfl

theorem endAt_stop (here : text[index]? = some c)
    (moved : move frame below c text[index + 1]? = none) :
    endAt (frame :: below) text index = some index := by
  rw [endAt, drop_of_getElem? here, closing_cons, List.head?_drop, moved]
  rfl

theorem endAt_single (here : text[index]? = some c)
    (moved : move frame below c text[index + 1]? = some { frames := after }) :
    endAt (frame :: below) text index = endAt after text (index + 1) := by
  rw [endAt, drop_of_getElem? here, closing_cons, List.head?_drop, moved]
  exact map_pass index 1 _

/-- The second character of a pair is passed unexamined. -/
theorem endAt_pair (here : text[index]? = some c)
    (moved : move frame below c text[index + 1]? = some { frames := after, pair := true })
    (goesOn : after ≠ [] ∨ index + 1 < text.length) :
    endAt (frame :: below) text index = endAt after text (index + 2) := by
  rw [endAt, drop_of_getElem? here, closing_cons, List.head?_drop, moved]
  dsimp only
  by_cases inText : index + 1 < text.length
  · rw [List.drop_eq_getElem_cons inText, closing_pair, map_pass, map_pass]
    rfl
  · have isPast : text.length ≤ index + 1 := Nat.le_of_not_lt inText
    obtain ⟨frame, below, rfl⟩ := List.exists_cons_of_ne_nil (goesOn.resolve_right inText)
    rw [endAt_past (Nat.le_succ_of_le isPast), List.drop_eq_nil_of_le isPast]
    rfl

/-- Over a frame that takes line breaks as its own, the pass goes on in it where the frames
above it end. -/
theorem endAt_over
    (keepsBreaks : ∀ next, move base below '\n' next = some { frames := base :: below })
    (frames : List Frame) (text : List Char) (index : Nat) :
    endAt (frames ++ base :: below) text index =
      (endAt frames text index).bind (endAt (base :: below) text) := by
  rw [endAt, closing_over keepsBreaks, endAt]
  cases closing frames false (text.drop index) with
  | none => rfl
  | some count =>
      rw [Option.bind_some, map_pass, List.drop_drop, Option.map_some, Option.bind_some]
      rfl

/-!
Comments.
-/

theorem findFrom_past {sign : List Char} (isPast : text.length ≤ index) :
    findFrom text sign index = none := by
  rw [findFrom, Nat.sub_eq_zero_of_le isPast]
  rfl

theorem findFrom_here (sign : List Char) (inText : index < text.length) :
    findFrom text sign index =
      if standsAt text sign index then some index else findFrom text sign (index + 1) := by
  have isSucc : text.length - index = text.length - (index + 1) + 1 := by omega
  rw [findFrom, isSucc, List.range'_succ, List.find?_cons]
  cases standsAt text sign index <;> rfl

theorem standsAt_single (here : text[index]? = some c) (mark : Char) :
    standsAt text [mark] index ↔ c = mark := by
  rw [standsAt, drop_of_getElem? here]
  simp only [List.isPrefixOf_cons_cons, List.isPrefixOf_nil_left, Bool.and_true, beq_iff_eq]
  exact eq_comm

theorem endAt_lineComment (text : List Char) (index : Nat) :
    endAt [.lineComment] text index = findFrom text ['\n'] index := by
  induction index using index_induction text with
  | step index ih =>
      by_cases inText : index < text.length
      · obtain ⟨c, here⟩ := exists_getElem? inText
        rw [findFrom_here _ inText]
        by_cases isBreak : c = '\n'
        · subst isBreak
          rw [if_pos ((standsAt_single here '\n').mpr rfl)]
          exact endAt_stop here rfl
        · have goesOn : move .lineComment [] c text[index + 1]? = some { frames := [.lineComment] } := by
            simp [move, isBreak]
          rw [if_neg (by rwa [standsAt_single here]), endAt_single here goesOn]
          exact ih (index + 1) (Nat.lt_succ_self index) inText
      · rw [endAt_past (Nat.le_of_not_lt inText), findFrom_past (Nat.le_of_not_lt inText)]

theorem endAt_blockComment (text : List Char) (index : Nat) :
    endAt [.blockComment] text index = (findFrom text ['*', '/'] index).map (· + 2) := by
  induction index using index_induction text with
  | step index ih =>
      by_cases inText : index < text.length
      · obtain ⟨c, here⟩ := exists_getElem? inText
        rw [findFrom_here _ inText]
        by_cases ends : c = '*' ∧ text[index + 1]? = some '/'
        · obtain ⟨rfl, follows⟩ := ends
          rw [if_pos (standsAt_pair.mpr ⟨here, follows⟩)]
          obtain ⟨nextInText, -⟩ := List.getElem?_eq_some_iff.mp follows
          have closes : move .blockComment [] '*' text[index + 1]? =
              some { frames := [], pair := true } := by
            rw [follows]
            rfl
          rw [endAt_pair here closes (.inr nextInText), endAt_nil]
          rfl
        · have goesOn : move .blockComment [] c text[index + 1]? =
              some { frames := [.blockComment] } := by
            simpa [move] using ends
          have notHere : ¬standsAt text ['*', '/'] index := by
            rw [standsAt_pair, here, Option.some_inj]
            exact ends
          rw [if_neg notHere, endAt_single here goesOn]
          exact ih (index + 1) (Nat.lt_succ_self index) inText
      · rw [endAt_past (Nat.le_of_not_lt inText), findFrom_past (Nat.le_of_not_lt inText)]
        rfl

theorem le_of_endAt {place : Nat} (ends : endAt frames text index = some place) :
    index ≤ place := by
  obtain ⟨count, -, rfl⟩ := Option.map_eq_some_iff.mp ends
  exact Nat.le_add_right index count

theorem endAt_le {place : Nat} (ends : endAt frames text index = some place)
    (inText : index ≤ text.length) : place ≤ text.length := by
  obtain ⟨count, closed, rfl⟩ := Option.map_eq_some_iff.mp ends
  have within := closing_le closed
  rw [List.length_drop] at within
  omega

/-- What is not closed within the text ends with it. -/
theorem getD_endAt (frame : Frame) (inText : index ≤ text.length) :
    (endAt [frame] text index).getD text.length = index + extent frame (text.drop index) := by
  rw [endAt, extent]
  cases closing [frame] false (text.drop index) with
  | none =>
      rw [Option.map_none, Option.getD_none, Option.getD_none, List.length_drop]
      omega
  | some count => rfl

/-- A comment starts with a slash and the mark of its kind, and runs to the end of its frame. -/
theorem commentEnd?_eq_some {stop : Nat} (ends : commentEnd? text index = some stop) :
    ∃ mark frame, (mark, frame) ∈ [('/', Frame.lineComment), ('*', Frame.blockComment)] ∧
      text[index]? = some '/' ∧ text[index + 1]? = some mark ∧
        stop = (endAt [frame] text (index + 2)).getD text.length := by
  unfold commentEnd? at ends
  split at ends
  · next isLine =>
      obtain ⟨here, next⟩ := standsAt_pair.mp isLine
      obtain ⟨inText, -⟩ := List.getElem?_eq_some_iff.mp here
      obtain ⟨nextInText, -⟩ := List.getElem?_eq_some_iff.mp next
      refine ⟨'/', .lineComment, by simp, here, next, ?_⟩
      -- The search from the first slash passes over both slashes.
      have search : findFrom text ['\n'] index = findFrom text ['\n'] (index + 2) := by
        rw [findFrom_here _ inText, if_neg (by simp [standsAt_single here]),
          findFrom_here _ nextInText, if_neg (by simp [standsAt_single next])]
      rw [endAt_lineComment, ← search]
      exact (Option.some.inj ends).symm
  split at ends
  · next isBlock =>
      obtain ⟨here, next⟩ := standsAt_pair.mp isBlock
      refine ⟨'*', .blockComment, by simp, here, next, ?_⟩
      rw [endAt_blockComment]
      exact (Option.some.inj ends).symm
  · cases ends

theorem keepsSlash_of_commentEnd?_eq_none (here : text[index]? = some '/')
    (none : commentEnd? text index = none) : KeepsSlash text[index + 1]? := by
  unfold commentEnd? at none
  split at none
  · cases none
  split at none
  · cases none
  · next noLine noBlock =>
      rw [standsAt_pair] at noLine noBlock
      exact ⟨fun next => noLine ⟨here, next⟩, fun next => noBlock ⟨here, next⟩⟩

theorem lt_of_commentEnd? {stop : Nat} (ends : commentEnd? text index = some stop) :
    index + 1 < stop ∧ stop ≤ text.length := by
  obtain ⟨mark, frame, -, -, next, rfl⟩ := commentEnd?_eq_some ends
  obtain ⟨nextInText, -⟩ := List.getElem?_eq_some_iff.mp next
  cases isEnd : endAt [frame] text (index + 2) with
  | none => exact ⟨nextInText, le_rfl⟩
  | some place => exact ⟨le_of_endAt isEnd, endAt_le isEnd nextInText⟩

/-- In a bracket a comment is passed over. -/
theorem endAt_comment {stop : Nat} (ends : commentEnd? text index = some stop)
    (below : List Frame) :
    endAt (.bracket :: below) text index = endAt (.bracket :: below) text stop := by
  obtain ⟨mark, frame, isMark, here, next, rfl⟩ := commentEnd?_eq_some ends
  have starts : move .bracket below '/' text[index + 1]? =
      some { frames := frame :: .bracket :: below, pair := true } := by
    simp only [List.mem_cons, Prod.mk.injEq, List.not_mem_nil, or_false] at isMark
    rw [next]
    obtain ⟨rfl, rfl⟩ | ⟨rfl, rfl⟩ := isMark <;> rfl
  have passed : endAt ([frame] ++ .bracket :: below) text (index + 2) = _ :=
    endAt_over (fun _ => move_ordinary rfl) [frame] text (index + 2)
  rw [endAt_pair here starts (.inl (List.cons_ne_nil _ _)), ← List.singleton_append, passed]
  cases endAt [frame] text (index + 2) with
  | none => exact (endAt_past le_rfl).symm
  | some place => rfl

end

end ComponentAtlas.Source
