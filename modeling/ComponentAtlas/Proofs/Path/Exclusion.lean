/-
Module: ComponentAtlas.Proofs.Path.Exclusion
Purpose: What an exclude pattern hits at a directory it hits at everything below the
  directory, unless the working root lies below the directory too.
Main exports:
  hitsText_of_isInfix, dropShared_append, IsPlain, excludes_below
-/
import ComponentAtlas.Path.Filter
import ComponentAtlas.Proofs.Path.Names

namespace ComponentAtlas.Path

open ComponentAtlas.Text

/-!
A pattern that is looked for anywhere in a text is found in every longer text too.
-/

theorem afterRun_of_accepts {allowed : Char → Bool} {accept : List Char → Bool}
    {text : List Char} (accepts : accept text) : afterRun allowed accept text := by
  cases text with
  | nil => exact accepts
  | cons c rest => simp [afterRun, accepts]

theorem afterRun_append {allowed : Char → Bool} {accept accept' : List Char → Bool}
    {after : List Char} (carries : ∀ text, accept text → accept' (text ++ after))
    {text : List Char} (found : afterRun allowed accept text) :
    afterRun allowed accept' (text ++ after) := by
  induction text with
  | nil => exact afterRun_of_accepts (carries [] found)
  | cons c rest ih =>
      simp only [afterRun, Bool.or_eq_true, Bool.and_eq_true] at found
      simp only [List.cons_append, afterRun, Bool.or_eq_true, Bool.and_eq_true]
      rcases found with here | ⟨isAllowed, later⟩
      · exact .inl (carries _ here)
      · exact .inr ⟨isAllowed, ih later⟩

theorem afterSlash_append {accept accept' : List Char → Bool} {after : List Char}
    (carries : ∀ text, accept text → accept' (text ++ after)) (text : List Char)
    (found : afterSlash accept text) : afterSlash accept' (text ++ after) := by
  unfold afterSlash at found
  split at found
  · exact carries _ found
  · cases found

theorem follows_append {accept accept' : List Char → Bool} {after : List Char}
    (carries : ∀ text, accept text → accept' (text ++ after)) (signs : List Wildcard) :
    ∀ text, follows accept signs text → follows accept' signs (text ++ after) := by
  induction signs with
  | nil => simpa only [follows] using carries
  | cons sign rest ih =>
      intro text found
      cases sign with
      | folders =>
          simp only [follows, Bool.or_eq_true] at found ⊢
          exact found.imp (ih text) (afterRun_append (afterSlash_append ih))
      | anything => exact afterRun_append ih found
      | within => exact afterRun_append ih found
      | one =>
          cases text with
          | nil => cases found
          | cons c later =>
              simp only [follows, Bool.and_eq_true] at found
              simpa only [List.cons_append, follows, Bool.and_eq_true] using
                ⟨found.1, ih later found.2⟩
      | char d =>
          cases text with
          | nil => cases found
          | cons c later =>
              simp only [follows, Bool.and_eq_true] at found
              simpa only [List.cons_append, follows, Bool.and_eq_true] using
                ⟨found.1, ih later found.2⟩

theorem occurs_of_isInfix {signs : List Wildcard} {text longer : List Char}
    (within : text <:+: longer) (found : occurs signs text) : occurs signs longer := by
  obtain ⟨before, after, rfl⟩ := within
  rw [List.append_assoc]
  induction before with
  | nil =>
      rw [List.nil_append]
      exact afterRun_append (follows_append (fun _ _ => rfl) signs) found
  | cons c rest ih =>
      simp only [occurs, List.cons_append, afterRun, Bool.or_eq_true] at ih ⊢
      exact .inr (by simpa using ih)

theorem occursIn_iff_isInfix {needle text : List Char} :
    occursIn needle text ↔ needle <:+: text := by
  induction text with
  | nil => simp [occursIn]
  | cons c rest ih => simp [occursIn, ih, List.infix_cons_iff]

/-- What hits a text hits every text around it. -/
theorem hitsText_of_isInfix {pattern text longer : List Char} (within : text <:+: longer)
    (hit : hitsText pattern text) : hitsText pattern longer := by
  unfold hitsText at hit ⊢
  split at hit
  · rw [if_pos (by assumption)]
    exact occurs_of_isInfix within hit
  · rw [if_neg (by assumption)]
    exact occursIn_iff_isInfix.mpr ((occursIn_iff_isInfix.mp hit).trans within)

/-!
The way from the working root to what lies below a directory goes on from the way to
the directory, and ends in the names that follow.  For a directory above the working
root it does not: the way leads up to the directory, and from there it may lead down
again.
-/

/-- Names that are left below what is shared stay there when more names follow. -/
theorem dropShared_append {left right : List (List Char)} (more : List (List Char))
    (notAbove : ¬ left <+: right) :
    ∃ below leftover, below ≠ [] ∧ below <:+ left ∧ dropShared left right = (below, leftover) ∧
      dropShared (left ++ more) right = (below ++ more, leftover) := by
  induction left generalizing right with
  | nil => exact absurd List.nil_prefix notAbove
  | cons name rest ih =>
      cases right with
      | nil =>
          exact ⟨name :: rest, [], by simp, List.suffix_refl _, rfl, rfl⟩
      | cons other others =>
          by_cases same : name = other
          · subst same
            have restNotAbove : ¬ rest <+: others := fun isAbove =>
              notAbove (List.cons_prefix_cons.mpr ⟨rfl, isAbove⟩)
            obtain ⟨below, leftover, ne_nil, isEnd, short, long⟩ := ih restNotAbove
            exact ⟨below, leftover, ne_nil, isEnd.trans (List.suffix_cons _ _),
              by simp [dropShared, short], by simp [dropShared, long]⟩
          · exact ⟨name :: rest, other :: others, by simp, List.suffix_refl _,
              by simp [dropShared, same], by simp [dropShared, same]⟩

theorem joinWith_isPrefix (separator : List Char) (pieces more : List (List Char)) :
    joinWith separator pieces <+: joinWith separator (pieces ++ more) := by
  induction pieces with
  | nil => exact List.nil_prefix
  | cons piece rest ih =>
      cases rest with
      | nil =>
          cases more with
          | nil => exact List.prefix_refl _
          | cons next others => simp [joinWith]
      | cons next others =>
          simp only [List.cons_append, joinWith] at ih ⊢
          simpa using ih

theorem isInfix_joinWith {piece : List Char} {pieces : List (List Char)} (separator : List Char)
    (member : piece ∈ pieces) : piece <:+: joinWith separator pieces := by
  induction pieces with
  | nil => cases member
  | cons first rest ih =>
      cases rest with
      | nil => simp_all [joinWith]
      | cons next others =>
          rw [joinWith.eq_3 _ _ _ (by simp)]
          rcases List.mem_cons.mp member with rfl | later
          · rw [List.append_assoc]
            exact (List.prefix_append _ _).isInfix
          · exact (ih later).trans (List.suffix_append _ _).isInfix

theorem mem_joinWith {separator : List Char} {pieces : List (List Char)} {c : Char}
    (member : c ∈ joinWith separator pieces) : c ∈ separator ∨ ∃ piece ∈ pieces, c ∈ piece := by
  induction pieces with
  | nil => cases member
  | cons first rest ih =>
      cases rest with
      | nil => exact .inr ⟨first, by simp, member⟩
      | cons next others =>
          rw [joinWith.eq_3 _ _ _ (by simp), List.mem_append, List.mem_append] at member
          rcases member with (inFirst | inSeparator) | later
          · exact .inr ⟨first, by simp, inFirst⟩
          · exact .inl inSeparator
          · rcases ih later with inSeparator | ⟨piece, isPiece, inPiece⟩
            · exact .inl inSeparator
            · exact .inr ⟨piece, List.mem_cons_of_mem _ isPiece, inPiece⟩

/-- The way from a directory to a path as a list of names and two dots. -/
theorem relative_eq {path start : Path} {below leftover : List (List Char)} (ne_nil : below ≠ [])
    (dropped : dropShared path.parts start.parts = (below, leftover)) :
    path.relative start = joinWith ['/'] (leftover.map (fun _ => above) ++ below) := by
  simp [relative, dropped, ne_nil]

/-- A name without a backslash.  One with a backslash would be compared with patterns
as if it were two names. -/
structure IsPlain (name : List Char) : Prop extends IsName name where
  no_backslash : '\\' ∉ name

instance : DecidablePred IsPlain := fun name =>
  decidable_of_iff (IsName name ∧ '\\' ∉ name) ⟨fun ⟨a, b⟩ => ⟨a, b⟩, fun ⟨a, b⟩ => ⟨a, b⟩⟩

theorem withoutDots_joinWith {pieces : List (List Char)}
    (named : ∀ piece ∈ pieces, piece ≠ ['.'] ∧ '/' ∉ piece) :
    withoutDots (joinWith ['/'] pieces) = joinWith ['/'] pieces := by
  refine withoutDots.eq_2 _ fun rest starts => ?_
  cases pieces with
  | nil => cases starts
  | cons first others =>
      obtain ⟨ne_dot, noSlash⟩ := named first (by simp)
      -- The second character is a slash only when the first name is a single one.
      cases others <;> rcases first with _ | ⟨c, _ | ⟨d, more⟩⟩ <;> simp_all [joinWith]

/-- Patterns are compared with the way as it stands. -/
theorem testPath_joinWith {pieces : List (List Char)}
    (named : ∀ piece ∈ pieces, piece ≠ ['.'] ∧ '/' ∉ piece ∧ '\\' ∉ piece) :
    testPath (joinWith ['/'] pieces) = joinWith ['/'] pieces := by
  have noBackslash : '\\' ∉ joinWith ['/'] pieces := by
    intro member
    rcases mem_joinWith member with inSeparator | ⟨piece, isPiece, inPiece⟩
    · simp at inSeparator
    · exact (named piece isPiece).2.2 inPiece
  have sameSlashes : withSlashes (joinWith ['/'] pieces) = joinWith ['/'] pieces := by
    refine (List.map_congr_left fun c member => ?_).trans (List.map_id _)
    have notBackslash : c ≠ '\\' := fun isBackslash => noBackslash (isBackslash ▸ member)
    simp [notBackslash]
  rw [testPath, sameSlashes]
  exact withoutDots_joinWith fun piece isPiece =>
    ⟨(named piece isPiece).1, (named piece isPiece).2.1⟩

/-- An exclude pattern that hits a directory hits all that lies below it, when the
directory is not the starting directory of ways, nor above it. -/
theorem excludes_below (filter : Filter) {path start : Path} {way : List (List Char)}
    (plain : ∀ name ∈ path.parts ++ way, IsPlain name)
    (notAbove : ¬ path.parts <+: start.parts)
    (hit : filter.excludes (path.relative start) path.name) :
    filter.excludes ((path.below way).relative start) (path.below way).name := by
  obtain ⟨below, leftover, ne_nil, isEnd, short, long⟩ := dropShared_append way notAbove
  have shortWay := relative_eq ne_nil short
  have longWay : (path.below way).relative start =
      joinWith ['/'] (leftover.map (fun _ => above) ++ below ++ way) := by
    rw [List.append_assoc]
    exact relative_eq (by simp [ne_nil]) long
  have named : ∀ piece ∈ leftover.map (fun _ => above) ++ below ++ way,
      piece ≠ ['.'] ∧ '/' ∉ piece ∧ '\\' ∉ piece := by
    intro piece member
    simp only [List.mem_append, List.mem_map] at member
    rcases member with (⟨_, _, rfl⟩ | inBelow) | inWay
    · decide
    · have isPlain := plain piece (List.mem_append_left _ (isEnd.subset inBelow))
      exact ⟨isPlain.ne_dot, isPlain.no_slash, isPlain.no_backslash⟩
    · have isPlain := plain piece (List.mem_append_right _ inWay)
      exact ⟨isPlain.ne_dot, isPlain.no_slash, isPlain.no_backslash⟩
  have shortTest : testPath (path.relative start) = path.relative start := by
    rw [shortWay]
    exact testPath_joinWith fun piece member => named piece (List.mem_append_left _ member)
  have longTest : testPath ((path.below way).relative start) = (path.below way).relative start := by
    rw [longWay]
    exact testPath_joinWith named
  have goesOn : path.relative start <+: (path.below way).relative start := by
    rw [shortWay, longWay]
    exact joinWith_isPrefix _ _ _
  have endsInName : path.name <:+: (path.below way).relative start := by
    refine List.IsInfix.trans ?_ goesOn.isInfix
    rw [shortWay]
    refine isInfix_joinWith _ (List.mem_append_right _ ?_)
    obtain ⟨before, isWhole⟩ := isEnd
    rw [name, ← isWhole, List.getLast?_append, List.getLast?_eq_some_getLast ne_nil]
    exact List.getLast_mem ne_nil
  simp only [Filter.excludes, List.any_eq_true, Bool.and_eq_true, Bool.or_eq_true, shortTest,
    longTest] at hit ⊢
  obtain ⟨pattern, isPattern, notEmpty, inName | inWay⟩ := hit
  · exact ⟨pattern, isPattern, notEmpty, .inr (hitsText_of_isInfix endsInName inName)⟩
  · exact ⟨pattern, isPattern, notEmpty, .inr (hitsText_of_isInfix goesOn.isInfix inWay)⟩

end ComponentAtlas.Path
