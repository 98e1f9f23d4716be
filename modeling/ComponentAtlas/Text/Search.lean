/-
Module: ComponentAtlas.Text.Search
Purpose: Substrings, replacement, and all places where a recogniser succeeds.
Main exports:
  occursIn, after?, replaceAll, Recogniser, hits, firstHit
-/

namespace ComponentAtlas.Text

/-- `needle` stands somewhere in the text. -/
def occursIn (needle : List Char) : List Char → Bool
  | [] => needle.isEmpty
  | c :: rest => needle.isPrefixOf (c :: rest) || occursIn needle rest

/-- What follows `start` in a text that begins with it. -/
def after? (start text : List Char) : Option (List Char) :=
  if start.isPrefixOf text then some (text.drop start.length) else none

/-- What precedes `finish` in a text that ends with it. -/
def before? (finish text : List Char) : Option (List Char) :=
  if finish.isSuffixOf text then some (text.take (text.length - finish.length)) else none

/-- The text without `start` where it begins with it. -/
def withoutStart (start text : List Char) : List Char := (after? start text).getD text

/-- The text without `finish` where it ends with it. -/
def withoutEnd (finish text : List Char) : List Char := (before? finish text).getD text

/-- Replace the occurrences of `old` from left to right; `skip` characters of
the last one are still to be passed over. -/
def replaceFrom (old new : List Char) (skip : Nat) : List Char → List Char
  | [] => []
  | c :: rest =>
    match skip with
    | more + 1 => replaceFrom old new more rest
    | 0 =>
      if old.isPrefixOf (c :: rest) then new ++ replaceFrom old new (old.length - 1) rest
      else c :: replaceFrom old new 0 rest

/-- Replace every occurrence of a text that is not empty; occurrences do not
overlap. -/
def replaceAll (old new text : List Char) : List Char := replaceFrom old new 0 text

/-!
A recogniser looks at the character before a place and at the text from that
place on.  When it succeeds it gives a value and the number of characters it
took, which is at least one.
-/

/-- What may be found at a place of a text. -/
abbrev Recogniser (α : Type) := Option Char → List Char → Option (α × Nat)

/-- All hits from left to right with their offsets.  The search goes on after a
hit, so hits never overlap; `skip` characters of the last hit are still to be
passed over. -/
def hitsFrom {α : Type} (recognise : Recogniser α) (before : Option Char)
    (offset skip : Nat) : List Char → List (Nat × α)
  | [] => []
  | c :: rest =>
    match skip with
    | more + 1 => hitsFrom recognise (some c) (offset + 1) more rest
    | 0 =>
      match recognise before (c :: rest) with
      | none => hitsFrom recognise (some c) (offset + 1) 0 rest
      | some (value, size) =>
        (offset, value) :: hitsFrom recognise (some c) (offset + 1) (size - 1) rest

def hits {α : Type} (recognise : Recogniser α) (text : List Char) : List (Nat × α) :=
  hitsFrom recognise none 0 0 text

/-- The first place where a test on the character before and the text from there
succeeds. -/
def anywhere (test : Option Char → List Char → Bool) (before : Option Char) :
    List Char → Bool
  | [] => false
  | c :: rest => test before (c :: rest) || anywhere test (some c) rest

def firstHit {α : Type} (recognise : Recogniser α) (before : Option Char) :
    List Char → Option α
  | [] => none
  | c :: rest =>
    match recognise before (c :: rest) with
    | some (value, _) => some value
    | none => firstHit recognise (some c) rest

end ComponentAtlas.Text
