/-
Module: ComponentAtlas.Proofs.Path.Wildcards
Purpose: The texts that a wildcard pattern stands for, and the paths that follow it.
Main exports:
  Wildcard.language, globLanguage, follows_cons_iff, followsToEnd_iff, matches_iff
-/
import Mathlib.Computability.Language
import ComponentAtlas.Path.Filter
import ComponentAtlas.Proofs.Path.Expansion

namespace ComponentAtlas.Path

open ComponentAtlas.Text

/-!
A pattern stands for a set of texts, sign by sign.  A text is compared with the signs from
left to right, and a sign takes as much of the text as the signs behind it leave.
-/

/-- Texts that end with a slash. -/
def foldersOnly : Language Char := {text | ∃ before, text = before ++ ['/']}

/-- Texts without a slash. -/
def insideName : Language Char := {text | '/' ∉ text}

/-- Single characters, but the slash. -/
def oneInName : Language Char := {text | ∃ c, c ≠ '/' ∧ text = [c]}

/-- The texts that one sign of a pattern stands for. -/
def Wildcard.language : Wildcard → Language Char
  | .folders => 1 + foldersOnly
  | .anything => ⊤
  | .within => insideName
  | .one => oneInName
  | .char c => {[c]}

/-- The texts that a pattern without groups stands for. -/
def globLanguage : List Char → Language Char
  | '*' :: '*' :: '/' :: rest => Wildcard.folders.language * globLanguage rest
  | '*' :: '*' :: rest => Wildcard.anything.language * globLanguage rest
  | '*' :: rest => Wildcard.within.language * globLanguage rest
  | '?' :: rest => Wildcard.one.language * globLanguage rest
  | c :: rest => (Wildcard.char c).language * globLanguage rest
  | [] => 1

theorem afterRun_iff {allowed : Char → Bool} {accept : List Char → Bool} {text : List Char} :
    afterRun allowed accept text ↔
      ∃ before after, before ++ after = text ∧ (∀ c ∈ before, allowed c) ∧ accept after := by
  induction text with
  | nil => simp [afterRun]
  | cons c rest ih =>
      simp only [afterRun, Bool.or_eq_true, Bool.and_eq_true, ih]
      constructor
      · rintro (here | ⟨isAllowed, before, after, rfl, areAllowed, accepts⟩)
        · exact ⟨[], c :: rest, rfl, by simp, here⟩
        · exact ⟨c :: before, after, rfl, by simpa using ⟨isAllowed, areAllowed⟩, accepts⟩
      · rintro ⟨before, after, isText, areAllowed, accepts⟩
        cases before with
        | nil =>
            obtain rfl : after = c :: rest := isText
            exact .inl accepts
        | cons d before =>
            obtain ⟨rfl, rfl⟩ : d = c ∧ before ++ after = rest := by simpa using isText
            simp only [List.mem_cons, forall_eq_or_imp] at areAllowed
            exact .inr ⟨areAllowed.1, before, after, rfl, areAllowed.2, accepts⟩

theorem afterSlash_iff {accept : List Char → Bool} {text : List Char} :
    afterSlash accept text ↔ ∃ rest, text = '/' :: rest ∧ accept rest := by
  unfold afterSlash
  split
  · simp
  · rename_i noSlash
    constructor
    · intro accepts
      cases accepts
    · rintro ⟨rest, isText, -⟩
      exact absurd isText (noSlash rest)

theorem areOnLine {text : List Char} (isLine : '\n' ∉ text) : ∀ c ∈ text, onLine c := by
  intro c member
  have ne : c ≠ '\n' := fun same => isLine (same ▸ member)
  simp [onLine, ne]

/-- One sign takes a text that it stands for from the front of a line. -/
theorem follows_cons_iff {accept : List Char → Bool} (sign : Wildcard) (signs : List Wildcard)
    {text : List Char} (isLine : '\n' ∉ text) :
    follows accept (sign :: signs) text ↔
      ∃ before ∈ sign.language, ∃ after, before ++ after = text ∧ follows accept signs after := by
  cases sign with
  | folders =>
      rw [follows, Bool.or_eq_true, afterRun_iff]
      constructor
      · rintro (here | ⟨before, after, isText, -, slash⟩)
        · exact ⟨[], .inl rfl, text, rfl, here⟩
        · obtain ⟨rest, rfl, later⟩ := afterSlash_iff.mp slash
          exact ⟨before ++ ['/'], .inr ⟨before, rfl⟩, rest, by simpa using isText, later⟩
      · rintro ⟨_, rfl | ⟨before, rfl⟩, after, isText, later⟩
        · obtain rfl : after = text := isText
          exact .inl later
        · refine .inr ⟨before, '/' :: after, by simpa using isText, areOnLine ?_,
            afterSlash_iff.mpr ⟨after, rfl, later⟩⟩
          exact fun member => isLine (isText ▸ by simp [member])
  | anything =>
      rw [follows, afterRun_iff]
      constructor
      · rintro ⟨before, after, isText, -, later⟩
        exact ⟨before, trivial, after, isText, later⟩
      · rintro ⟨before, -, after, isText, later⟩
        refine ⟨before, after, isText, areOnLine ?_, later⟩
        exact fun member => isLine (isText ▸ by simp [member])
  | within =>
      have isInside (before : List Char) : (∀ c ∈ before, inName c) ↔ before ∈ insideName :=
        ⟨fun inside slash => absurd (inside '/' slash) (by decide),
          fun noSlash c member => by
            have ne : c ≠ '/' := fun same => noSlash (same ▸ member)
            simp [inName, ne]⟩
      rw [follows, afterRun_iff]
      constructor
      · rintro ⟨before, after, isText, inside, later⟩
        exact ⟨before, (isInside before).mp inside, after, isText, later⟩
      · rintro ⟨before, inside, after, isText, later⟩
        exact ⟨before, after, isText, (isInside before).mpr inside, later⟩
  | one =>
      constructor
      · intro follow
        cases text with
        | nil => cases follow
        | cons c rest =>
            simp only [follows, Bool.and_eq_true, decide_eq_true_eq] at follow
            exact ⟨[c], ⟨c, follow.1, rfl⟩, rest, rfl, follow.2⟩
      · rintro ⟨_, ⟨c, notSlash, rfl⟩, after, rfl, later⟩
        simpa [follows, notSlash] using later
  | char d =>
      constructor
      · intro follow
        cases text with
        | nil => cases follow
        | cons c rest =>
            simp only [follows, Bool.and_eq_true, decide_eq_true_eq] at follow
            exact ⟨[c], congrArg (fun c => [c]) follow.1, rest, rfl, follow.2⟩
      · rintro ⟨_, rfl, after, rfl, later⟩
        simpa [follows] using later

/-- A line follows the signs of a pattern up to its end when the pattern stands for it. -/
theorem followsToEnd_iff {pattern text : List Char} (isLine : '\n' ∉ text) :
    followsToEnd (wildcards pattern) text ↔ text ∈ globLanguage pattern := by
  have step (sign : Wildcard) {rest : List Char}
      (ih : ∀ text, '\n' ∉ text → (followsToEnd (wildcards rest) text ↔ text ∈ globLanguage rest))
      {text : List Char} (isLine : '\n' ∉ text) :
      followsToEnd (sign :: wildcards rest) text ↔ text ∈ sign.language * globLanguage rest := by
    rw [followsToEnd, follows_cons_iff sign _ isLine, Language.mem_mul]
    refine exists_congr fun before => and_congr_right fun _ => ?_
    constructor
    · rintro ⟨after, rfl, later⟩
      exact ⟨after, (ih after fun member => isLine (by simp [member])).mp later, rfl⟩
    · rintro ⟨after, isAfter, rfl⟩
      exact ⟨after, rfl, (ih after fun member => isLine (by simp [member])).mpr isAfter⟩
  fun_induction globLanguage pattern generalizing text with
  | case1 rest ih => exact step .folders (fun _ => ih) isLine
  | case2 rest notFolders ih =>
      rw [wildcards.eq_2 _ notFolders]
      exact step .anything (fun _ => ih) isLine
  | case3 rest notFolders notAnything ih =>
      rw [wildcards.eq_3 _ notFolders notAnything]
      exact step .within (fun _ => ih) isLine
  | case4 rest ih => exact step .one (fun _ => ih) isLine
  | case5 c rest notFolders notAnything notStar notOne ih =>
      rw [wildcards.eq_5 _ _ notFolders notAnything notStar notOne]
      exact step (.char c) (fun _ => ih) isLine
  | case6 =>
      have notBreak : text ≠ ['\n'] := by
        rintro rfl
        simp at isLine
      simp [wildcards, followsToEnd, follows, isEnd, notBreak, Language.mem_one]

/-- A pattern that starts in any folder stands for what the rest stands for, and for all that
ends in it behind a slash. -/
theorem mem_globLanguage_folders {pattern text : List Char} :
    text ∈ globLanguage ('*' :: '*' :: '/' :: pattern) ↔
      text ∈ globLanguage pattern ∨
        ∃ before after, text = before ++ '/' :: after ∧ after ∈ globLanguage pattern := by
  rw [globLanguage, Language.mem_mul]
  constructor
  · rintro ⟨_, rfl | ⟨before, rfl⟩, after, isAfter, rfl⟩
    · exact .inl isAfter
    · exact .inr ⟨before, after, by simp, isAfter⟩
  · rintro (isWhole | ⟨before, after, rfl, isAfter⟩)
    · exact ⟨[], .inl rfl, text, isWhole, rfl⟩
    · exact ⟨before ++ ['/'], .inr ⟨before, rfl⟩, after, isAfter, by simp⟩

/-!
Paths are compared with slashes for backslashes, and without the dots and slashes that they
may start with.
-/

/-- The path without its leading dots and slashes. -/
theorem withoutDots_spec (path : List Char) :
    (∃ count, path = (List.replicate count ['.', '/']).flatten ++ withoutDots path) ∧
      ¬['.', '/'] <+: withoutDots path := by
  fun_induction withoutDots path with
  | case1 rest ih =>
      obtain ⟨⟨count, isRest⟩, notMore⟩ := ih
      refine ⟨⟨count + 1, ?_⟩, notMore⟩
      rw [List.replicate_succ, List.flatten_cons, List.append_assoc, ← isRest]
      rfl
  | case2 path noDots =>
      refine ⟨⟨0, rfl⟩, ?_⟩
      rintro ⟨rest, rfl⟩
      exact noDots rest rfl

theorem notMem_testPath {path : List Char} (isLine : '\n' ∉ path) : '\n' ∉ testPath path := by
  obtain ⟨⟨count, isPath⟩, -⟩ := withoutDots_spec (withSlashes path)
  intro member
  have inPath : '\n' ∈ withSlashes path := isPath ▸ List.mem_append_right _ member
  obtain ⟨c, isChar, same⟩ := List.mem_map.mp inPath
  split at same
  · cases same
  · exact isLine (same ▸ isChar)

theorem matchesPattern_iff {pattern relative fileName : List Char} (isLine : '\n' ∉ relative)
    (nameIsLine : '\n' ∉ fileName) :
    matchesPattern pattern relative fileName ↔ ∃ expanded ∈ expand pattern,
      testPath relative ∈ globLanguage expanded ∨ fileName ∈ globLanguage expanded := by
  simp only [matchesPattern, List.any_eq_true, Bool.or_eq_true,
    followsToEnd_iff (notMem_testPath isLine), followsToEnd_iff nameIsLine]

/-- A path on one line is taken when it, or the file name, is one of the texts that some
expansion of some pattern stands for.  A pattern that starts in any folder takes what the
rest of it takes, and what ends in that behind a slash. -/
theorem matches_iff (filter : Filter) {relative fileName : List Char} (isLine : '\n' ∉ relative)
    (nameIsLine : '\n' ∉ fileName) :
    (filter.matches relative fileName ↔
      ∃ pattern ∈ filter.component, ∃ expanded ∈ expand pattern,
        testPath relative ∈ globLanguage expanded ∨ fileName ∈ globLanguage expanded) ∧
    ((∃ count, withSlashes relative =
        (List.replicate count ['.', '/']).flatten ++ testPath relative) ∧
      ¬['.', '/'] <+: testPath relative) ∧
    ∀ pattern, matchesPattern ('*' :: '*' :: '/' :: pattern) relative fileName ↔
      ∃ expanded ∈ expand pattern, ∃ text, (text = testPath relative ∨ text = fileName) ∧
        (text ∈ globLanguage expanded ∨
          ∃ before after, text = before ++ '/' :: after ∧ after ∈ globLanguage expanded) := by
  refine ⟨?_, withoutDots_spec _, fun pattern => ?_⟩
  · simp only [Filter.matches, List.any_eq_true, matchesPattern_iff isLine nameIsLine]
  · have noOpening : '{' ∉ ['*', '*', '/'] := by decide
    rw [matchesPattern_iff isLine nameIsLine]
    constructor
    · rintro ⟨_, isExpansion, isTaken⟩
      obtain ⟨expanded, isRest, rfl⟩ := (mem_expand_append noOpening).mp isExpansion
      rcases isTaken with path | name
      · exact ⟨expanded, isRest, _, .inl rfl, mem_globLanguage_folders.mp path⟩
      · exact ⟨expanded, isRest, _, .inr rfl, mem_globLanguage_folders.mp name⟩
    · rintro ⟨expanded, isRest, _, rfl | rfl, isTaken⟩
      · exact ⟨_, (mem_expand_append noOpening).mpr ⟨expanded, isRest, rfl⟩,
          .inl (mem_globLanguage_folders.mpr isTaken)⟩
      · exact ⟨_, (mem_expand_append noOpening).mpr ⟨expanded, isRest, rfl⟩,
          .inr (mem_globLanguage_folders.mpr isTaken)⟩

/-- Screens in any folder, and stories right in `src`. -/
def screensAndStories : Filter :=
  { component := ["**/*Screen.\x7btsx,jsx\x7d".toList, "src/*.stories.?s".toList], exclude := [] }

/-- A screen is taken below any folder, but a story is not below two. -/
theorem matches_screensAndStories :
    let login := ("./src\\auth/LoginScreen.jsx".toList, "LoginScreen.jsx".toList)
    let deep := ("src/ui/Card.stories.ts".toList, "Card.stories.ts".toList)
    ('\n' ∉ login.1 ∧ '\n' ∉ login.2 ∧
      (∃ pattern ∈ screensAndStories.component, ∃ expanded ∈ expand pattern,
        testPath login.1 ∈ globLanguage expanded ∨ login.2 ∈ globLanguage expanded)) ∧
    '\n' ∉ deep.1 ∧ '\n' ∉ deep.2 ∧
      ¬∃ pattern ∈ screensAndStories.component, ∃ expanded ∈ expand pattern,
        testPath deep.1 ∈ globLanguage expanded ∨ deep.2 ∈ globLanguage expanded := by
  intro login deep
  have loginLine : '\n' ∉ login.1 ∧ '\n' ∉ login.2 := by decide
  have deepLine : '\n' ∉ deep.1 ∧ '\n' ∉ deep.2 := by decide
  have taken : screensAndStories.matches login.1 login.2 = true := by decide +kernel
  have left : screensAndStories.matches deep.1 deep.2 = false := by decide +kernel
  refine ⟨⟨loginLine.1, loginLine.2, ?_⟩, deepLine.1, deepLine.2, ?_⟩
  · exact (matches_iff screensAndStories loginLine.1 loginLine.2).1.mp taken
  · rw [← (matches_iff screensAndStories deepLine.1 deepLine.2).1, left]
    exact Bool.false_ne_true

end ComponentAtlas.Path
