/-
Module: ComponentAtlas.Proofs.Text.Lines
Purpose: The lines of a text are parts of it, and a part without line breaks lies in one of
  its lines.
Main exports:
  OnOneLine, mem_lines, exists_line, lines_joinWith, isInfix_joinWith
-/
import Mathlib.Data.List.Infix
import ComponentAtlas.Text.Blank
import ComponentAtlas.Text.Lines

namespace ComponentAtlas.Text

section

variable {part line text : List Char} {others : List (List Char)}

/-- A line is a part of the text that no line break interrupts. -/
def OnOneLine (line text : List Char) : Prop := line <:+: text ∧ ∀ c ∈ line, isLineBreak c = false

theorem OnOneLine.nil (text : List Char) : OnOneLine [] text := ⟨List.nil_infix, by simp⟩

theorem OnOneLine.trans {whole : List Char} (onOneLine : OnOneLine line text)
    (within : text <:+: whole) : OnOneLine line whole := ⟨onOneLine.1.trans within, onOneLine.2⟩

theorem prefix_of_lines_eq_cons (isFirst : lines text = line :: others) : line <+: text := by
  fun_induction lines text generalizing line others with
  | case1 => cases isFirst
  | case2 => cases isFirst; exact List.nil_prefix
  | case3 => cases isFirst; exact List.nil_prefix
  | case4 c rest _ _ ih =>
      cases rows : lines rest with
      | nil =>
          rw [rows] at isFirst
          cases isFirst
          exact List.cons_prefix_cons.mpr ⟨rfl, List.nil_prefix⟩
      | cons row more =>
          rw [rows] at isFirst
          cases isFirst
          exact List.cons_prefix_cons.mpr ⟨rfl, ih rows⟩

theorem mem_lines (member : line ∈ lines text) : OnOneLine line text := by
  fun_induction lines text generalizing line with
  | case1 => cases member
  | case2 rest ih =>
      rcases List.mem_cons.mp member with rfl | member
      · exact .nil _
      · exact (ih member).trans ((List.suffix_cons _ _).trans (List.suffix_cons _ _)).isInfix
  | case3 c rest _ _ ih =>
      rcases List.mem_cons.mp member with rfl | member
      · exact .nil _
      · exact (ih member).trans (List.suffix_cons _ _).isInfix
  | case4 c rest _ notBreak ih =>
      have unbroken : isLineBreak c = false := by simpa using notBreak
      cases rows : lines rest with
      | nil =>
          obtain rfl : line = [c] := by simpa [rows, consLine] using member
          have isPrefix : [c] <+: c :: rest := List.cons_prefix_cons.mpr ⟨rfl, List.nil_prefix⟩
          exact ⟨isPrefix.isInfix, by simpa using unbroken⟩
      | cons row more =>
          rw [rows] at member ih
          rcases List.mem_cons.mp member with rfl | member
          · have isPrefix := prefix_of_lines_eq_cons rows
            refine ⟨(List.cons_prefix_cons.mpr ⟨rfl, isPrefix⟩).isInfix, ?_⟩
            exact List.forall_mem_cons.mpr ⟨unbroken, (ih List.mem_cons_self).2⟩
          · exact (ih (List.mem_cons_of_mem _ member)).trans (List.suffix_cons _ _).isInfix

theorem lines_ne_nil (ne_nil : text ≠ []) : lines text ≠ [] := by
  fun_induction lines text with
  | case1 => exact absurd rfl ne_nil
  | case2 => exact List.cons_ne_nil _ _
  | case3 => exact List.cons_ne_nil _ _
  | case4 c rest => cases rows : lines rest <;> simp [consLine]

/-- What a text begins with, up to a line break at most, its first line begins with. -/
theorem exists_line_of_prefix (starts : part <+: text) (ne_nil : part ≠ [])
    (unbroken : ∀ c ∈ part, isLineBreak c = false) :
    ∃ line others, lines text = line :: others ∧ part <+: line := by
  fun_induction lines text generalizing part with
  | case1 => exact absurd (List.prefix_nil.mp starts) ne_nil
  | case2 rest =>
      obtain ⟨d, more, rfl⟩ := List.exists_cons_of_ne_nil ne_nil
      obtain ⟨rfl, -⟩ := List.cons_prefix_cons.mp starts
      cases unbroken _ List.mem_cons_self
  | case3 c rest _ isBreak =>
      obtain ⟨d, more, rfl⟩ := List.exists_cons_of_ne_nil ne_nil
      obtain ⟨rfl, -⟩ := List.cons_prefix_cons.mp starts
      rw [unbroken _ List.mem_cons_self] at isBreak
      cases isBreak
  | case4 c rest _ _ ih =>
      obtain ⟨d, more, rfl⟩ := List.exists_cons_of_ne_nil ne_nil
      obtain ⟨rfl, behind⟩ := List.cons_prefix_cons.mp starts
      by_cases none : more = []
      · subst none
        cases rows : lines rest with
        | nil => exact ⟨[d], [], rfl, List.prefix_rfl⟩
        | cons row others =>
            exact ⟨d :: row, others, rfl, List.cons_prefix_cons.mpr ⟨rfl, List.nil_prefix⟩⟩
      · obtain ⟨row, others, rows, begins⟩ :=
          ih behind none fun c member => unbroken c (List.mem_cons_of_mem d member)
        exact ⟨d :: row, others, by rw [rows, consLine], List.cons_prefix_cons.mpr ⟨rfl, begins⟩⟩

theorem exists_line_cons {c : Char} {rest : List Char}
    (ofRest : ∃ line ∈ lines rest, part <:+: line) :
    ∃ line ∈ consLine c (lines rest), part <:+: line := by
  obtain ⟨line, member, within⟩ := ofRest
  cases rows : lines rest with
  | nil => simp [rows] at member
  | cons row more =>
      rw [rows] at member
      rcases List.mem_cons.mp member with rfl | member
      · exact ⟨c :: line, List.mem_cons_self, within.trans (List.suffix_cons _ _).isInfix⟩
      · exact ⟨line, List.mem_cons_of_mem _ member, within⟩

/-- A part without line breaks lies in one of the lines. -/
theorem exists_line (onOneLine : OnOneLine part text) (ne_nil : text ≠ []) :
    ∃ line ∈ lines text, part <:+: line := by
  by_cases none : part = []
  · subst none
    obtain ⟨line, others, rows⟩ := List.exists_cons_of_ne_nil (lines_ne_nil ne_nil)
    exact ⟨line, rows ▸ List.mem_cons_self, List.nil_infix⟩
  clear ne_nil
  obtain ⟨within, unbroken⟩ := onOneLine
  have notBreak : ∀ {c rest}, part <+: c :: rest → isLineBreak c = false := by
    intro c rest starts
    obtain ⟨d, more, rfl⟩ := List.exists_cons_of_ne_nil none
    obtain ⟨rfl, -⟩ := List.cons_prefix_cons.mp starts
    exact unbroken _ List.mem_cons_self
  fun_induction lines text with
  | case1 => exact absurd (List.infix_nil.mp within) none
  | case2 rest ih =>
      rcases List.infix_cons_iff.mp within with starts | within
      · cases notBreak starts
      rcases List.infix_cons_iff.mp within with starts | within
      · cases notBreak starts
      obtain ⟨line, member, isPart⟩ := ih within
      exact ⟨line, List.mem_cons_of_mem _ member, isPart⟩
  | case3 c rest _ isBreak ih =>
      rcases List.infix_cons_iff.mp within with starts | within
      · rw [notBreak starts] at isBreak
        cases isBreak
      · obtain ⟨line, member, isPart⟩ := ih within
        exact ⟨line, List.mem_cons_of_mem _ member, isPart⟩
  | case4 c rest notPair unended ih =>
      rcases List.infix_cons_iff.mp within with starts | within
      · obtain ⟨line, others, rows, begins⟩ := exists_line_of_prefix starts none unbroken
        rw [lines, if_neg unended] at rows
        · exact ⟨line, rows ▸ List.mem_cons_self, begins.isInfix⟩
        · exact notPair
      · exact exists_line_cons (ih within)

end

/-!
Texts put together with line feeds are divided into them again.
-/

section

variable {row : List Char} {rows : List (List Char)}

theorem lines_eq_singleton (ne_nil : row ≠ []) (unbroken : ∀ c ∈ row, isLineBreak c = false) :
    lines row = [row] := by
  induction row with
  | nil => exact absurd rfl ne_nil
  | cons c row ih =>
      obtain ⟨notBreak, later⟩ := List.forall_mem_cons.mp unbroken
      have notReturn : ∀ more, c = '\r' → row = '\n' :: more → False := by
        rintro more rfl -
        cases notBreak
      rw [lines.eq_3 _ _ notReturn, notBreak]
      cases row with
      | nil => rfl
      | cons d row =>
          rw [ih (List.cons_ne_nil d row) later]
          rfl

theorem lines_append_lineFeed (unbroken : ∀ c ∈ row, isLineBreak c = false) (rest : List Char) :
    lines (row ++ '\n' :: rest) = row :: lines rest := by
  induction row with
  | nil => rfl
  | cons c row ih =>
      obtain ⟨notBreak, later⟩ := List.forall_mem_cons.mp unbroken
      have notReturn : ∀ more, c = '\r' → row ++ '\n' :: rest = '\n' :: more → False := by
        rintro more rfl -
        cases notBreak
      rw [List.cons_append, lines.eq_3 _ _ notReturn, notBreak, ih later]
      rfl

theorem lines_joinWith (unbroken : ∀ row ∈ rows, ∀ c ∈ row, isLineBreak c = false)
    (last : List Char) : lines (joinWith ['\n'] (rows ++ [last])) = rows ++ lines last := by
  induction rows with
  | nil => rfl
  | cons row rows ih =>
      obtain ⟨first, later⟩ := List.forall_mem_cons.mp unbroken
      have ne_nil : rows ++ [last] ≠ [] := by simp
      rw [List.cons_append, joinWith.eq_3 _ _ _ ne_nil, List.append_assoc, List.singleton_append,
        lines_append_lineFeed first, ih later]
      rfl

end

theorem joinWith_append_singleton {separator : List Char} {pieces : List (List Char)}
    (ne_nil : pieces ≠ []) (last : List Char) :
    joinWith separator (pieces ++ [last]) = joinWith separator pieces ++ (separator ++ last) := by
  induction pieces with
  | nil => exact absurd rfl ne_nil
  | cons piece pieces ih =>
      cases pieces with
      | nil => simp [joinWith]
      | cons next pieces =>
          rw [List.cons_append, joinWith.eq_3 _ _ _ (by simp), ih (List.cons_ne_nil _ _),
            joinWith.eq_3 _ _ _ (List.cons_ne_nil _ _)]
          simp only [List.append_assoc]

/-- A part in which a separator does not occur lies on one side of it. -/
theorem isInfix_append_cons {part before after : List Char} {separator : Char}
    (within : part <:+: before ++ separator :: after) (absent : separator ∉ part) :
    part <:+: before ∨ part <:+: after := by
  obtain ⟨lead, rest, whole⟩ := within
  rcases List.append_eq_append_iff.mp whole with ⟨more, isBefore, -⟩ | ⟨more, isLead, isRest⟩
  · exact .inl ⟨lead, more, isBefore.symm⟩
  cases more with
  | nil => exact .inl ⟨lead, [], by simpa using isLead⟩
  | cons c more =>
      obtain ⟨rfl, rfl⟩ := List.cons.inj isRest
      rcases List.append_eq_append_iff.mp isLead with ⟨others, -, rfl⟩ | ⟨others, -, isMore⟩
      · simp at absent
      cases others with
      | nil => exact absurd (by rw [← List.nil_append part, ← isMore]; simp) absent
      | cons d others =>
          obtain ⟨rfl, rfl⟩ := List.cons.inj isMore
          exact .inr ⟨others, rest, rfl⟩

theorem isInfix_append_cons_iff {part before after : List Char} {separator : Char}
    (absent : separator ∉ part) :
    part <:+: before ++ separator :: after ↔ part <:+: before ∨ part <:+: after := by
  constructor
  · intro within
    exact isInfix_append_cons within absent
  · rintro (here | behind)
    · exact here.trans (List.prefix_append _ _).isInfix
    · exact behind.trans ((List.suffix_cons _ _).trans (List.suffix_append _ _)).isInfix

/-- A part of the pieces put together, without the separator, is a part of one piece. -/
theorem isInfix_joinWith {part : List Char} {separator : Char} {pieces : List (List Char)}
    (within : part <:+: joinWith [separator] pieces) (absent : separator ∉ part) :
    part = [] ∨ ∃ piece ∈ pieces, part <:+: piece := by
  induction pieces with
  | nil => exact .inl (List.infix_nil.mp within)
  | cons piece pieces ih =>
      cases pieces with
      | nil => exact .inr ⟨piece, List.mem_singleton_self _, within⟩
      | cons next pieces =>
          rw [joinWith.eq_3 _ _ _ (List.cons_ne_nil _ _), List.append_assoc,
            List.singleton_append] at within
          rcases isInfix_append_cons within absent with here | behind
          · exact .inr ⟨piece, List.mem_cons_self, here⟩
          · refine (ih behind).imp_right ?_
            rintro ⟨other, member, isPart⟩
            exact ⟨other, List.mem_cons_of_mem _ member, isPart⟩

end ComponentAtlas.Text
