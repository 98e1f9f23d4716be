/-
Module: ComponentAtlas.Proofs.Text.Alphanumeric
Purpose: Words and blanks have no character in common.
Main exports:
  isWord_of_isBlank
-/
import ComponentAtlas.Text.Alphanumeric
import ComponentAtlas.Text.Blank

namespace ComponentAtlas.Text

/-- The code points of the blanks. -/
def blankCodes : List Nat :=
  [9, 10, 11, 12, 13, 28, 29, 30, 31, 32, 0x85, 0xA0, 0x1680, 0x2000, 0x2001, 0x2002, 0x2003,
    0x2004, 0x2005, 0x2006, 0x2007, 0x2008, 0x2009, 0x200A, 0x2028, 0x2029, 0x202F, 0x205F,
    0x3000]

theorem mem_blankCodes {c : Char} (blank : isBlank c) : c.toNat ∈ blankCodes := by
  simp only [isBlank, Bool.or_eq_true, Bool.and_eq_true, decide_eq_true_eq] at blank
  simp only [blankCodes, List.mem_cons, List.not_mem_nil, or_false]
  omega

/-- No blank belongs to a word. -/
theorem isWord_of_isBlank {c : Char} (blank : isBlank c) : isWord c = false := by
  have none : ∀ code ∈ blankCodes, isWord (Char.ofNat code) = false := by decide +kernel
  simpa using none c.toNat (mem_blankCodes blank)

theorem isBlank_of_isWord {c : Char} (word : isWord c) : isBlank c = false := by
  by_cases blank : isBlank c
  · rw [isWord_of_isBlank blank] at word
    cases word
  · simpa using blank

end ComponentAtlas.Text
