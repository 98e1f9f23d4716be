/-
Module: ComponentAtlas.Proofs.Source.Undisturbed
Purpose: Where a header is found in a script and in the script without its comments.
Main exports:
  Header.IsPlain, TakesCode, Undisturbed, hits_withoutComments, bodies_withoutComments,
  hits_behindSlashes, bodies_behindSlashes
-/
import ComponentAtlas.Proofs.Source.CommentPlace
import ComponentAtlas.Proofs.Source.Inside
import ComponentAtlas.Proofs.Text.Search
import ComponentAtlas.Source.Block

namespace ComponentAtlas.Source

open ComponentAtlas.Text

/-!
A header is looked for in the text, comments or not.  As long as no header touches a comment,
the same headers are found when the comments are gone.
-/

/-- The header takes something, does not look behind its brace, and without a brace no further
than at the next character, and neither begins with a slash nor minds one before it. -/
structure Header.IsPlain (header : Header) : Prop where
  positive : ∀ {before : Option Char} {text : List Char} {size : Nat},
    header before text = some size → 0 < size
  congr : ∀ {before : Option Char} {taken rest other : List Char},
    header before (taken ++ rest) = some taken.length →
      taken.getLast? = some '{' ∨ other.head? = rest.head? →
      header before (taken ++ other) = some taken.length
  notSlash : ∀ {before : Option Char} {rest : List Char}, header before ('/' :: rest) = none
  behindSlash : ∀ {text : List Char}, header (some '/') text = header none text

def Lexeme.isComment : Lexeme → Bool
  | .comment _ => true
  | _ => false

/-- So many characters behind the lexemes in front are whole lexemes.  None of these is a
comment, nor is the one before them, nor, unless they end with a brace, the one behind. -/
def TakesLexemes (view : Lexeme → List Char) (front rest : List Lexeme) (size : Nat) : Prop :=
  front.getLast?.all (!·.isComment) ∧
    ∃ taken after, rest = taken ++ after ∧ (taken.flatMap view).length = size ∧
      taken.all (!·.isComment) ∧
      ((taken.flatMap view).getLast? = some '{' ∨ after.head?.all (!·.isComment))

instance (view : Lexeme → List Char) (front rest : List Lexeme) (size : Nat) :
    Decidable (TakesLexemes view front rest size) :=
  inferInstanceAs (Decidable (_ ∧ _))

/-- If the header is found in the lexeme, it begins with the lexeme and takes whole lexemes that
no comment touches. -/
def TakesCodeAt (header : Header) (view : Lexeme → List Char) (front : List Lexeme)
    (part : Lexeme) (rest : List Lexeme) : Prop :=
  ∀ inner c more, view part = inner ++ c :: more →
    ∀ size ∈ header (front.flatMap view ++ inner).getLast? (c :: more ++ rest.flatMap view),
      inner = [] ∧ TakesLexemes view front (part :: rest) size

instance (header : Header) (view : Lexeme → List Char) (front : List Lexeme) (part : Lexeme)
    (rest : List Lexeme) : Decidable (TakesCodeAt header view front part rest) :=
  decidableForallAppendCons (view part) _

/-- Wherever the header is found, in one view of the lexemes, it takes whole lexemes that no
comment touches. -/
def TakesCode (header : Header) (view : Lexeme → List Char) (parts : List Lexeme) : Prop :=
  ∀ front part rest, parts = front ++ part :: rest → TakesCodeAt header view front part rest

instance (header : Header) (view : Lexeme → List Char) (parts : List Lexeme) :
    Decidable (TakesCode header view parts) :=
  decidableForallAppendCons parts _

/-- Neither in the script nor in the script without its comments is a header found that touches
a comment of the script. -/
structure Undisturbed (header : Header) (source : List Char) : Prop where
  withComments : TakesCode header Lexeme.text (lexemes source)
  withoutComments : TakesCode header Lexeme.uncommented (lexemes source)

instance (header : Header) (source : List Char) : Decidable (Undisturbed header source) :=
  decidable_of_iff (TakesCode header Lexeme.text (lexemes source) ∧
      TakesCode header Lexeme.uncommented (lexemes source))
    ⟨fun both => ⟨both.1, both.2⟩, fun both => ⟨both.1, both.2⟩⟩

section

variable {header : Header} {view : Lexeme → List Char} {before : Option Char}
  {parts front rest taken after : List Lexeme} {part : Lexeme} {offset size : Nat}

theorem Lexeme.uncommented_of_not_isComment (isCode : !part.isComment) :
    part.uncommented = part.text := by
  cases part with
  | code c => rfl
  | literal text => rfl
  | comment text => cases isCode

theorem flatMap_uncommented (isCode : taken.all (!·.isComment)) :
    taken.flatMap Lexeme.uncommented = taken.flatMap Lexeme.text :=
  List.flatMap_congr fun _ member =>
    Lexeme.uncommented_of_not_isComment (List.all_eq_true.mp isCode _ member)

theorem AreLexemes.text_ne_nil (areLexemes : AreLexemes parts) (member : part ∈ parts) :
    part.text ≠ [] := by
  induction areLexemes with
  | nil => cases member
  | code c _ _ _ ih =>
      rcases List.mem_cons.mp member with rfl | member
      · exact List.cons_ne_nil _ _
      · exact ih member
  | literal quote inside _ _ _ ih =>
      rcases List.mem_cons.mp member with rfl | member
      · exact List.cons_ne_nil _ _
      · exact ih member
  | comment inside _ _ ih =>
      rcases List.mem_cons.mp member with rfl | member
      · exact List.cons_ne_nil _ _
      · exact ih member

/-- Behind code the script shows the same character with its comments and without them. -/
theorem getLast?_uncommented (areLexemes : AreLexemes parts) (within : front ⊆ parts)
    (isCode : front.getLast?.all (!·.isComment)) :
    (front.flatMap Lexeme.uncommented).getLast? = (front.flatMap Lexeme.text).getLast? := by
  cases front using List.reverseRecOn with
  | nil => rfl
  | append_singleton front last =>
      rw [List.getLast?_concat] at isCode
      have ne_nil := areLexemes.text_ne_nil (within (by simp) : last ∈ parts)
      rw [List.flatMap_append, List.flatMap_append, List.flatMap_singleton,
        List.flatMap_singleton, Lexeme.uncommented_of_not_isComment isCode,
        List.getLast?_append, List.getLast?_append, List.getLast?_eq_some_getLast ne_nil]
      rfl

/-- In front of code the script shows the same character with its comments and without
them. -/
theorem head?_uncommented (areLexemes : AreLexemes parts) (within : after ⊆ parts)
    (isCode : after.head?.all (!·.isComment)) :
    (after.flatMap Lexeme.uncommented).head? = (after.flatMap Lexeme.text).head? := by
  cases after with
  | nil => rfl
  | cons first after =>
      have ne_nil := areLexemes.text_ne_nil (within List.mem_cons_self)
      rw [List.flatMap_cons, List.flatMap_cons, Lexeme.uncommented_of_not_isComment isCode,
        List.head?_append, List.head?_append, List.head?_eq_some_head ne_nil]
      rfl

theorem hitsFrom_hit_header (ne_nil : taken.flatMap view ≠ [])
    (found : header before (taken.flatMap view ++ after.flatMap view) =
      some (taken.flatMap view).length) :
    hitsFrom header.hit before offset 0 ((taken ++ after).flatMap view) =
      (offset, taken.flatMap view, after.flatMap view) ::
        hitsFrom header.hit (lastOf (taken.flatMap view) before)
          (offset + (taken.flatMap view).length) 0 (after.flatMap view) := by
  rw [List.flatMap_append, hitsFrom_hit ne_nil]
  rw [Header.hit, found, Option.map_some, List.take_left, List.drop_left]

/-- The search goes over a lexeme in which no header begins. -/
theorem hitsFrom_pass (offset : Nat)
    (nowhere : ∀ inner c more, view part = inner ++ c :: more →
      header (front.flatMap view ++ inner).getLast? (c :: more ++ rest.flatMap view) = none) :
    hitsFrom header.hit (front.flatMap view).getLast? offset 0 ((part :: rest).flatMap view) =
      hitsFrom header.hit ((front ++ [part]).flatMap view).getLast?
        (offset + (view part).length) 0 (rest.flatMap view) := by
  have isLast : ((front ++ [part]).flatMap view).getLast? =
      lastOf (view part) (front.flatMap view).getLast? := by
    rw [List.flatMap_append, List.flatMap_singleton, List.getLast?_append, lastOf]
  rw [isLast, List.flatMap_cons]
  refine hitsFrom_append fun other c later divided => ?_
  have none := nowhere other c later divided
  rw [List.getLast?_append] at none
  rw [Header.hit, lastOf, none, Option.map_none]

/-- A header that is found in front of a lexeme takes this lexeme. -/
theorem TakesCode.exists_taken (takes : TakesCode header view parts) (isPlain : header.IsPlain)
    (divided : parts = front ++ part :: rest) (ne_nil : view part ≠ [])
    (found : header (front.flatMap view).getLast? ((part :: rest).flatMap view) = some size) :
    front.getLast?.all (!·.isComment) ∧
      ∃ taken after, part :: rest = taken ++ after ∧ taken.flatMap view ≠ [] ∧
        (taken.flatMap view).length = size ∧ taken.all (!·.isComment) ∧
        ((taken.flatMap view).getLast? = some '{' ∨ after.head?.all (!·.isComment)) := by
  obtain ⟨c, more, isView⟩ := List.exists_cons_of_ne_nil ne_nil
  have here : size ∈ header (front.flatMap view ++ []).getLast? (c :: more ++ rest.flatMap view) := by
    rwa [List.append_nil, ← isView, ← List.flatMap_cons]
  obtain ⟨-, noneBefore, taken, after, isTaken, isSize, isCode, noneBehind⟩ :=
    takes front part rest divided [] c more isView size here
  refine ⟨noneBefore, taken, after, isTaken, ?_, isSize, isCode, noneBehind⟩
  intro none
  have positive := isPlain.positive found
  rw [← isSize, none] at positive
  cases positive

/-- Two views of the lexemes show the same of what is no comment. -/
structure Agree (one other : Lexeme → List Char) (parts : List Lexeme) : Prop where
  ofCode : ∀ {taken : List Lexeme}, taken.all (!·.isComment) →
    taken.flatMap one = taken.flatMap other
  ofLast : ∀ {front : List Lexeme}, front ⊆ parts → front.getLast?.all (!·.isComment) →
    (front.flatMap one).getLast? = (front.flatMap other).getLast?
  ofHead : ∀ {after : List Lexeme}, after ⊆ parts → after.head?.all (!·.isComment) →
    (after.flatMap one).head? = (after.flatMap other).head?

theorem Agree.symm {one other : Lexeme → List Char} (agree : Agree one other parts) :
    Agree other one parts where
  ofCode isCode := (agree.ofCode isCode).symm
  ofLast within isCode := (agree.ofLast within isCode).symm
  ofHead within isCode := (agree.ofHead within isCode).symm

theorem AreLexemes.agree (areLexemes : AreLexemes parts) :
    Agree Lexeme.uncommented Lexeme.text parts where
  ofCode := flatMap_uncommented
  ofLast := getLast?_uncommented areLexemes
  ofHead := head?_uncommented areLexemes

/-- What is found in front of a lexeme in the one view is found there in the other. -/
theorem TakesCode.found_in_other {one other : Lexeme → List Char}
    (takes : TakesCode header one parts) (isPlain : header.IsPlain)
    (agree : Agree one other parts) (divided : parts = front ++ part :: rest)
    (ne_nil : one part ≠ [])
    (found : header (front.flatMap one).getLast? ((part :: rest).flatMap one) = some size) :
    ∃ taken after, part :: rest = taken ++ after ∧ taken.flatMap one = taken.flatMap other ∧
      taken.flatMap one ≠ [] ∧
      header (front.flatMap one).getLast? (taken.flatMap one ++ after.flatMap one) =
        some (taken.flatMap one).length ∧
      header (front.flatMap other).getLast? (taken.flatMap one ++ after.flatMap other) =
        some (taken.flatMap one).length := by
  obtain ⟨noneBefore, taken, after, isTaken, taken_ne_nil, isSize, isCode, noneBehind⟩ :=
    takes.exists_taken isPlain divided ne_nil found
  rw [isTaken, List.flatMap_append, ← isSize] at found
  have within : after ⊆ parts := by
    rw [divided, isTaken]
    exact List.subset_append_of_subset_right _ (List.subset_append_right _ _)
  have sameBefore := agree.ofLast (divided ▸ List.subset_append_left _ _) noneBefore
  refine ⟨taken, after, isTaken, agree.ofCode isCode, taken_ne_nil, found, ?_⟩
  rw [← sameBefore]
  exact isPlain.congr found (noneBehind.imp_right fun none => (agree.ofHead within none).symm)

theorem lastOf_flatMap (view : Lexeme → List Char) (front taken : List Lexeme) :
    lastOf (taken.flatMap view) (front.flatMap view).getLast? =
      ((front ++ taken).flatMap view).getLast? := by
  rw [List.flatMap_append, List.getLast?_append, lastOf]

/-- Where no header begins in front of a lexeme, none begins in it. -/
theorem TakesCode.nowhere (takes : TakesCode header view parts)
    (divided : parts = front ++ part :: rest)
    (notHere : view part ≠ [] →
      header (front.flatMap view).getLast? ((part :: rest).flatMap view) = none) :
    ∀ inner c more, view part = inner ++ c :: more →
      header (front.flatMap view ++ inner).getLast? (c :: more ++ rest.flatMap view) = none := by
  intro inner c more isView
  cases found : header (front.flatMap view ++ inner).getLast? (c :: more ++ rest.flatMap view) with
  | none => rfl
  | some size =>
      obtain ⟨rfl, -⟩ := takes front part rest divided inner c more isView size found
      rw [List.nil_append] at isView
      have none := notHere (isView ▸ List.cons_ne_nil c more)
      rw [List.flatMap_cons, isView] at none
      rw [List.append_nil, none] at found
      cases found

/-- The searches through the two views go side by side, from hit to hit. -/
theorem hitsFrom_undisturbed (isPlain : header.IsPlain) (areLexemes : AreLexemes parts)
    (inText : TakesCode header Lexeme.text parts)
    (inRemains : TakesCode header Lexeme.uncommented parts) (divided : parts = front ++ rest)
    (offset place : Nat) :
    (hitsFrom header.hit (front.flatMap Lexeme.uncommented).getLast? offset 0
        (rest.flatMap Lexeme.uncommented)).map (·.2) =
      (hitsFrom header.hit (front.flatMap Lexeme.text).getLast? place 0
        (rest.flatMap Lexeme.text)).map fun hit => (hit.2.1, withoutComments hit.2.2) := by
  induction size : rest.length using Nat.strong_induction_on
    generalizing front rest offset place with
  | h length ih =>
  cases rest with
  | nil => rfl
  | cons part rest =>
      have ne_nil : part.text ≠ [] := areLexemes.text_ne_nil (by simp [divided])
      cases found : header (front.flatMap Lexeme.text).getLast?
          ((part :: rest).flatMap Lexeme.text) with
      | some count =>
          obtain ⟨taken, after, isTaken, same, taken_ne_nil, here, there⟩ :=
            inText.found_in_other isPlain areLexemes.agree.symm divided ne_nil found
          rw [same] at there
          have shorter : after.length < length := by
            have counts := congrArg List.length isTaken
            have positive : taken ≠ [] := by
              rintro rfl
              exact taken_ne_nil rfl
            rw [List.length_append] at counts
            have := List.length_pos_iff.mpr positive
            omega
          have isAfter : AreLexemes after := by
            rw [divided, isTaken] at areLexemes
            exact areLexemes.right.right
          have left : withoutComments (after.flatMap Lexeme.text) =
              after.flatMap Lexeme.uncommented := isAfter.withoutComments_textOf
          have further : parts = (front ++ taken) ++ after := by
            rw [divided, isTaken, List.append_assoc]
          rw [isTaken, hitsFrom_hit_header taken_ne_nil here,
            hitsFrom_hit_header (same ▸ taken_ne_nil) there, List.map_cons, List.map_cons,
            lastOf_flatMap, lastOf_flatMap, left, same]
          exact congrArg _ (ih after.length shorter further _ _ rfl)
      | none =>
          have notInRemains : part.uncommented ≠ [] →
              header (front.flatMap Lexeme.uncommented).getLast?
                ((part :: rest).flatMap Lexeme.uncommented) = none := by
            intro notEmpty
            cases foundThere : header (front.flatMap Lexeme.uncommented).getLast?
                ((part :: rest).flatMap Lexeme.uncommented) with
            | none => rfl
            | some count =>
                obtain ⟨taken, after, isTaken, same, -, -, here⟩ :=
                  inRemains.found_in_other isPlain areLexemes.agree divided notEmpty foundThere
                rw [same, ← List.flatMap_append, ← isTaken, found] at here
                cases here
          have further : parts = (front ++ [part]) ++ rest := by rw [divided]; simp
          rw [hitsFrom_pass _ (inText.nowhere divided fun _ => found),
            hitsFrom_pass _ (inRemains.nowhere divided notInRemains)]
          refine ih rest.length ?_ further _ _ rfl
          rw [← size]
          exact Nat.lt_succ_self _

end

/-- When no header touches a comment, the script without its comments has the same headers,
and behind each of them the same text without comments. -/
theorem hits_withoutComments {header : Header} {source : List Char} (isPlain : header.IsPlain)
    (undisturbed : Undisturbed header source) :
    (hits header.hit (withoutComments source)).map (·.2) =
      (hits header.hit source).map fun hit => (hit.2.1, withoutComments hit.2.2) := by
  have isText : (lexemes source).flatMap Lexeme.text = source := textOf_lexemes source
  have both := hitsFrom_undisturbed isPlain (areLexemes_lexemes source) undisturbed.withComments
    undisturbed.withoutComments (List.nil_append _).symm 0 0
  rwa [isText] at both

/-- A place of the text lies in one of its lexemes. -/
theorem exists_lexeme {view : Lexeme → List Char} {parts : List Lexeme} {lead rest : List Char}
    {c : Char} (divided : parts.flatMap view = lead ++ c :: rest) :
    ∃ front part after inner more, parts = front ++ part :: after ∧
      view part = inner ++ c :: more ∧ lead = front.flatMap view ++ inner ∧
      rest = more ++ after.flatMap view := by
  induction parts generalizing lead with
  | nil => exact absurd divided.symm (by simp)
  | cons part parts ih =>
      rw [List.flatMap_cons] at divided
      have behind : ∀ inner, lead = view part ++ inner → parts.flatMap view = inner ++ c :: rest →
          ∃ front found after before more, part :: parts = front ++ found :: after ∧
            view found = before ++ c :: more ∧ lead = front.flatMap view ++ before ∧
            rest = more ++ after.flatMap view := by
        rintro inner rfl later
        obtain ⟨front, found, after, before, more, rfl, isView, rfl, isRest⟩ := ih later
        exact ⟨part :: front, found, after, before, more, rfl, isView, by simp, isRest⟩
      rcases List.append_eq_append_iff.mp divided with ⟨inner, isLead, later⟩ | ⟨outer, isPart, isRest⟩
      · exact behind inner isLead later
      · cases outer with
        | nil =>
            rw [List.append_nil] at isPart
            exact behind [] (by rw [isPart, List.append_nil]) isRest.symm
        | cons d more =>
            obtain ⟨rfl, rfl⟩ := List.cons.inj isRest
            exact ⟨[], part, parts, lead, more, rfl, isPart, rfl, rfl⟩

/-- No comment stands directly behind a header without a brace. -/
theorem Undisturbed.behind {header : Header} {source : List Char}
    (undisturbed : Undisturbed header source) {found : Nat × List Char × List Char}
    (hit : found ∈ hits header.hit source) :
    found.2.1.getLast? = some '{' ∨ (lexemes found.2.2).head?.all (!·.isComment) := by
  obtain ⟨lead, rest, size, divided, -, recognised⟩ := mem_hits hit
  obtain ⟨count, isFound, isHit⟩ := Option.map_eq_some_iff.mp recognised
  obtain ⟨isPair, rfl⟩ := Prod.mk.inj isHit
  rw [← isPair]
  cases rest with
  | nil =>
      rw [List.drop_nil, lexemes]
      exact .inr rfl
  | cons c rest =>
      rw [← textOf_lexemes source] at divided
      obtain ⟨front, part, later, inner, more, isParts, isText, rfl, rfl⟩ := exists_lexeme divided
      obtain ⟨rfl, -, taken, after, isTaken, isSize, -, noneBehind⟩ :=
        undisturbed.withComments front part later isParts inner c more isText count isFound
      have areLexemes : AreLexemes after := by
        have whole := areLexemes_lexemes source
        rw [isParts, isTaken] at whole
        exact whole.right.right
      have isRest : c :: (more ++ later.flatMap Lexeme.text) =
          taken.flatMap Lexeme.text ++ textOf after := by
        rw [textOf, ← List.flatMap_append, ← isTaken, List.flatMap_cons, isText]
        rfl
      rw [isRest, ← isSize, List.take_left, List.drop_left, areLexemes.lexemes_textOf]
      exact noneBehind

/-!
What a header introduces, and what it introduces in a line that is commented out.
-/

section

variable {α : Type} {recognise : Recogniser α} {header : Header} {source : List Char}

/-- The text between the braces behind a header. -/
def bodyBehind (taken rest : List Char) : Option (List Char) :=
  if taken.getLast? = some '{' then some (groupBody rest) else none

theorem map_body_blocks (header : Header) (text : List Char) :
    (blocks header text).map Block.body =
      ((hits header.hit text).map (·.2)).filterMap fun found => bodyBehind found.1 found.2 := by
  rw [blocks, List.map_filterMap, List.filterMap_map]
  refine List.filterMap_congr fun found _ => ?_
  simp only [bodyBehind, Function.comp_apply]
  split <;> rfl

theorem bodies_withoutComments (isPlain : header.IsPlain) (undisturbed : Undisturbed header source) :
    (blocks header (withoutComments source)).map Block.body =
      ((blocks header source).map Block.body).map withoutComments := by
  rw [map_body_blocks, map_body_blocks, hits_withoutComments isPlain undisturbed,
    List.filterMap_map, List.filterMap_map, List.map_filterMap]
  refine List.filterMap_congr fun found _ => ?_
  simp only [bodyBehind, Function.comp_apply, groupBody_withoutComments]
  split <;> rfl

theorem map_hitsFrom_offset (before : Option Char) (offset place skip : Nat) (text : List Char) :
    (hitsFrom recognise before offset skip text).map (·.2) =
      (hitsFrom recognise before place skip text).map (·.2) := by
  induction text generalizing before offset place skip with
  | nil => rfl
  | cons c text ih =>
      cases skip with
      | succ more => exact ih ..
      | zero =>
          simp only [hitsFrom]
          cases recognise before (c :: text) with
          | none => exact ih ..
          | some found => exact congrArg (found.1 :: ·) (ih ..)

/-- The marks of a line comment hide nothing. -/
theorem hits_behindSlashes (isPlain : header.IsPlain) (text : List Char) :
    (hits header.hit ('/' :: '/' :: text)).map (·.2) = (hits header.hit text).map (·.2) := by
  have notSlash (before : Option Char) (rest : List Char) :
      header.hit before ('/' :: rest) = none := by
    rw [Header.hit, isPlain.notSlash, Option.map_none]
  have sameStart : hitsFrom header.hit (some '/') 2 0 text = hitsFrom header.hit none 2 0 text := by
    cases text with
    | nil => rfl
    | cons c text =>
        have same : header.hit (some '/') (c :: text) = header.hit none (c :: text) := by
          rw [Header.hit, Header.hit, isPlain.behindSlash]
        simp only [hitsFrom, same]
  have passed : hits header.hit ('/' :: '/' :: text) = hitsFrom header.hit (some '/') 2 0 text := by
    simp only [hits, hitsFrom, notSlash]
  rw [passed, sameStart]
  exact map_hitsFrom_offset ..

theorem bodies_behindSlashes (isPlain : header.IsPlain) (text : List Char) :
    (blocks header ('/' :: '/' :: text)).map Block.body = (blocks header text).map Block.body := by
  rw [map_body_blocks, map_body_blocks, hits_behindSlashes isPlain]

end

/-- Of a line that is commented out nothing is left. -/
theorem withoutComments_behindSlashes {text : List Char} (onLine : '\n' ∉ text) :
    withoutComments ('/' :: '/' :: text) = [] := by
  have all : ∀ c ∈ text, decide (c ≠ '\n') := fun c member => by
    simpa using fun isBreak : c = '\n' => onLine (isBreak ▸ member)
  have ends : commentLength? ('/' :: text ++ textOf []) = some ('/' :: text).length := by
    rw [textOf_nil, List.append_nil, commentLength?_of_mark List.mem_cons_self,
      extent_lineComment, List.takeWhile_eq_self_iff.mpr all, Nat.add_comm, List.length_cons]
  have isComment : AreLexemes [.comment ('/' :: '/' :: text)] := .comment _ ends .nil
  have noBreaks : text.filter (· = '\n') = [] := List.filter_eq_nil_iff.mpr fun c member => by
    simpa using all c member
  have left := isComment.withoutComments_textOf
  simpa [Lexeme.text, Lexeme.uncommented, noBreaks] using left

end ComponentAtlas.Source
