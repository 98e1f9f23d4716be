/-
Module: ComponentAtlas.Proofs.Source.Enclosure
Purpose: The grammar of texts whose brackets, literals and comments are closed, and
  where the scanner sees them end.
Main exports:
  IsBody, IsTemplate, Passes, IsBody.passes, groupBody_of_passes, blocks_eq_singleton,
  bracketEnd?_of_isBody
-/
import ComponentAtlas.Proofs.Text.Search
import ComponentAtlas.Source.Block

namespace ComponentAtlas.Source

open ComponentAtlas.Text

/-- An opening bracket and the closing bracket of its kind. -/
def IsPair (opener closer : Char) : Prop :=
  (opener, closer) ∈ [('{', '}'), ('[', ']'), ('(', ')')]

instance (opener closer : Char) : Decidable (IsPair opener closer) :=
  inferInstanceAs (Decidable (_ ∈ _))

/-- A character that opens and closes nothing wherever it stands in code. -/
def isOrdinary (c : Char) : Bool := !isQuote c && !isOpener c && !isCloser c && c ≠ '/'

/-- The characters that are not ordinary. -/
def marks : List Char := ['"', '\'', '`', '{', '[', '(', '}', ']', ')', '/']

theorem isOrdinary_iff {c : Char} : isOrdinary c ↔ c ∉ marks := by
  simp [isOrdinary, marks, isQuote, isLineQuote, isOpener, isCloser, and_assoc]

theorem isOrdinary_of_isWord {c : Char} (word : isWord c) : isOrdinary c := by
  have none : ∀ mark ∈ marks, isWord mark = false := forall_mem_of_all (by decide)
  refine isOrdinary_iff.mpr fun member => ?_
  rw [none c member] at word
  cases word

theorem isOrdinary_of_isBlank {c : Char} (blank : isBlank c) : isOrdinary c := by
  have none : ∀ mark ∈ marks, isBlank mark = false := forall_mem_of_all (by decide)
  refine isOrdinary_iff.mpr fun member => ?_
  rw [none c member] at blank
  cases blank

theorem isBlank_of_isOrdinary_eq_false {c : Char} (mark : isOrdinary c = false) :
    isBlank c = false := by
  by_cases blank : isBlank c
  · rw [isOrdinary_of_isBlank blank] at mark
    cases mark
  · simpa using blank

theorem isOrdinary_of_isQuote {c : Char} (quote : isQuote c) : isOrdinary c = false := by
  simp [isOrdinary, quote]

theorem isOrdinary_of_isOpener {c : Char} (opener : isOpener c) : isOrdinary c = false := by
  simp [isOrdinary, opener]

theorem isOrdinary_of_isCloser {c : Char} (closer : isCloser c) : isOrdinary c = false := by
  simp [isOrdinary, closer]

/-- The inside of a literal between two quotes that ends with its line. -/
inductive IsQuoted (quote : Char) : List Char → Prop where
  | nil : IsQuoted quote []
  | escape {rest : List Char} (c : Char) (later : IsQuoted quote rest) :
      IsQuoted quote ('\\' :: c :: rest)
  | char {rest : List Char} (c : Char) (plain : c ≠ quote ∧ c ≠ '\\' ∧ c ≠ '\n')
      (later : IsQuoted quote rest) : IsQuoted quote (c :: rest)

theorem IsQuoted.of_plain {quote : Char} {text : List Char}
    (plain : ∀ c ∈ text, c ≠ quote ∧ c ≠ '\\' ∧ c ≠ '\n') : IsQuoted quote text := by
  induction text with
  | nil => exact .nil
  | cons c text ih =>
      rw [List.forall_mem_cons] at plain
      exact .char c plain.1 (ih plain.2)

/-- The character makes no comment of a slash in front of it. -/
def KeepsSlash (next : Option Char) : Prop := next ≠ some '/' ∧ next ≠ some '*'

instance (next : Option Char) : Decidable (KeepsSlash next) :=
  inferInstanceAs (Decidable (_ ∧ _))

mutual

/-- Code in which every bracket, literal and comment is closed.  Outside of them it has
none of the characters to `avoid`. -/
inductive IsBody : (avoid : List Char) → List Char → Prop where
  | nil (avoid : List Char) : IsBody avoid []
  | ordinary {avoid rest : List Char} (c : Char) (isOrdinary : isOrdinary c)
      (kept : c ∉ avoid) (later : IsBody avoid rest) : IsBody avoid (c :: rest)
  | slash {avoid rest : List Char} (alone : KeepsSlash rest.head?)
      (later : IsBody avoid rest) : IsBody avoid ('/' :: rest)
  -- The line break behind a line comment belongs to the code again.
  | lineComment {avoid rest : List Char} (inside : List Char) (onLine : '\n' ∉ inside)
      (later : IsBody avoid ('\n' :: rest)) :
      IsBody avoid ('/' :: '/' :: inside ++ '\n' :: rest)
  | blockComment {avoid rest : List Char} (inside : List Char)
      (unended : ¬ ['*', '/'] <:+: inside) (later : IsBody avoid rest) :
      IsBody avoid ('/' :: '*' :: inside ++ '*' :: '/' :: rest)
  | quoted {avoid inside rest : List Char} (quote : Char) (isQuote : isLineQuote quote)
      (inner : IsQuoted quote inside) (later : IsBody avoid rest) :
      IsBody avoid (quote :: inside ++ quote :: rest)
  | template {avoid inside rest : List Char} (inner : IsTemplate inside)
      (later : IsBody avoid rest) : IsBody avoid ('`' :: inside ++ '`' :: rest)
  | group {avoid inside rest : List Char} (opener closer : Char)
      (isPair : IsPair opener closer) (inner : IsBody [] inside)
      (later : IsBody avoid rest) : IsBody avoid (opener :: inside ++ closer :: rest)

/-- The inside of a template literal, whose interpolations hold code. -/
inductive IsTemplate : List Char → Prop where
  | nil : IsTemplate []
  | escape {rest : List Char} (c : Char) (later : IsTemplate rest) :
      IsTemplate ('\\' :: c :: rest)
  | char {rest : List Char} (c : Char) (plain : c ≠ '`' ∧ c ≠ '\\')
      (alone : c = '$' → rest.head? ≠ some '{') (later : IsTemplate rest) :
      IsTemplate (c :: rest)
  | interpolation {inside rest : List Char} (inner : IsBody [] inside)
      (later : IsTemplate rest) : IsTemplate ('$' :: '{' :: inside ++ '}' :: rest)

end

/-!
The scanner takes a closed text as a whole: behind it, the frames that were open before
it are open again.
-/

@[simp] theorem pass_zero (later : Option Nat) : pass 0 later = later := by
  cases later <;> rfl

theorem pass_pass (first second : Nat) (later : Option Nat) :
    pass first (pass second later) = pass (second + first) later := by
  cases later with
  | none => rfl
  | some count => simp only [pass, Option.map_some, Nat.add_assoc]

theorem closing_cons (frame : Frame) (below : List Frame) (c : Char) (rest : List Char) :
    closing (frame :: below) false (c :: rest) =
      match move frame below c rest.head? with
      | none => some 0
      | some next => pass 1 (closing next.frames next.pair rest) :=
  closing.eq_6 frame below c rest

theorem closing_pair (frames : List Frame) (c : Char) (rest : List Char) :
    closing frames true (c :: rest) = pass 1 (closing frames false rest) := by
  cases frames <;> simp [closing, pass]

/-- With some frames open the scanner passes over a text, and goes on with the rest with
other frames open. -/
def Passes (frames : List Frame) (text : List Char) (after : List Frame) (rest : List Char) :
    Prop :=
  closing frames false (text ++ rest) = pass text.length (closing after false rest)

namespace Passes

variable {frame : Frame} {frames below between after : List Frame} {c d : Char}
  {text more inside rest : List Char}

theorem nil (frames : List Frame) (rest : List Char) : Passes frames [] frames rest := by
  simp [Passes]

theorem cons (moved : move frame below c (text ++ rest).head? = some { frames := between })
    (later : Passes between text after rest) :
    Passes (frame :: below) (c :: text) after rest := by
  unfold Passes at later ⊢
  rw [List.cons_append, closing_cons, moved, List.length_cons, ← pass_pass, ← later]

theorem pair
    (moved : move frame below c (some d) = some { frames := between, pair := true })
    (later : Passes between text after rest) :
    Passes (frame :: below) (c :: d :: text) after rest := by
  unfold Passes at later ⊢
  rw [List.cons_append, List.cons_append, closing_cons, List.head?_cons, moved,
    List.length_cons, List.length_cons, ← pass_pass, ← pass_pass, ← later]
  simp only [closing_pair]

theorem append (first : Passes frames text between (more ++ rest))
    (second : Passes between more after rest) : Passes frames (text ++ more) after rest := by
  unfold Passes at first second ⊢
  rw [List.append_assoc, first, second, pass_pass, List.length_append, Nat.add_comm]

theorem quoted {quote : Char} (isQuote : isLineQuote quote) (inner : IsQuoted quote inside)
    (later : Passes below text after rest) :
    Passes (.literal quote :: below) (inside ++ quote :: text) after rest := by
  have noEscape : quote ≠ '\\' := by rintro rfl; cases isQuote
  have noTemplate : quote ≠ '`' := by rintro rfl; cases isQuote
  induction inner with
  | nil => exact cons (by simp [move, noEscape]) later
  | escape c _ ih => exact pair (by simp [move]) ih
  | char c plain _ ih => exact cons (by simp [move, plain, noTemplate]) ih

theorem lineComment (onLine : '\n' ∉ inside)
    (later : Passes (.bracket :: below) ('\n' :: text) after rest) :
    Passes (.lineComment :: .bracket :: below) (inside ++ '\n' :: text) after rest := by
  induction inside with
  | nil => exact later
  | cons c inside ih =>
      simp only [List.mem_cons, not_or] at onLine
      exact cons (by simp [move, Ne.symm onLine.1]) (ih onLine.2)

theorem blockComment (unended : ¬ ['*', '/'] <:+: inside) (later : Passes below text after rest) :
    Passes (.blockComment :: below) (inside ++ '*' :: '/' :: text) after rest := by
  induction inside with
  | nil => exact pair (by simp [move]) later
  | cons c inside ih =>
      rw [List.infix_cons_iff, not_or] at unended
      refine cons ?_ (ih unended.2)
      have goesOn : ¬ (c = '*' ∧ (inside ++ '*' :: '/' :: text ++ rest).head? = some '/') := by
        rintro ⟨rfl, isSlash⟩
        cases inside with
        | nil => cases isSlash
        | cons d more =>
            cases isSlash
            exact unended.1 (by simp)
      change move .blockComment below c (inside ++ '*' :: '/' :: text ++ rest).head? = _
      simpa only [move, Bool.and_eq_true, decide_eq_true_eq] using if_neg goesOn

end Passes

section

variable {below : List Frame} {c : Char} {next : Option Char}

theorem isBracket_of_isPair {opener closer : Char} (isPair : IsPair opener closer) :
    isOpener opener ∧ isCloser closer := by
  simp only [IsPair, List.mem_cons, Prod.mk.injEq, List.not_mem_nil, or_false] at isPair
  obtain ⟨rfl, rfl⟩ | ⟨rfl, rfl⟩ | ⟨rfl, rfl⟩ := isPair <;> decide

theorem keepsSlash_of_isCloser (closer : isCloser c) : KeepsSlash (some c) := by
  have : (c = '}' ∨ c = ']') ∨ c = ')' := by simpa [isCloser] using closer
  obtain (rfl | rfl) | rfl := this <;> decide

theorem isOpener_of_isCloser (closer : isCloser c) : isOpener c = false := by
  have : (c = '}' ∨ c = ']') ∨ c = ')' := by simpa [isCloser] using closer
  obtain (rfl | rfl) | rfl := this <;> rfl

theorem move_ordinary (ordinary : isOrdinary c) :
    move .bracket below c next = some { frames := .bracket :: below } := by
  simp only [isOrdinary, Bool.and_eq_true, Bool.not_eq_true', decide_eq_true_eq] at ordinary
  simp [move, ordinary]

theorem move_slash (alone : KeepsSlash next) :
    move .bracket below '/' next = some { frames := .bracket :: below } := by
  simp [move, alone.1, alone.2, isQuote, isLineQuote, isOpener, isCloser]

theorem move_quote (quote : isQuote c) :
    move .bracket below c next = some { frames := .literal c :: .bracket :: below } := by
  simp [move, quote]

theorem move_opener (opener : isOpener c) :
    move .bracket below c next = some { frames := .bracket :: .bracket :: below } := by
  have : (c = '{' ∨ c = '[') ∨ c = '(' := by simpa [isOpener] using opener
  obtain (rfl | rfl) | rfl := this <;> rfl

theorem move_closer (closer : isCloser c) :
    move .bracket below c next = some { frames := below } := by
  have : (c = '}' ∨ c = ']') ∨ c = ')' := by simpa [isCloser] using closer
  obtain (rfl | rfl) | rfl := this <;> rfl

end

theorem isQuote_of_isLineQuote {quote : Char} (line : isLineQuote quote) : isQuote quote := by
  simp [isQuote, line]

theorem KeepsSlash.append {text rest : List Char} (alone : KeepsSlash text.head?)
    (follows : KeepsSlash rest.head?) : KeepsSlash (text ++ rest).head? := by
  cases text with
  | nil => exact follows
  | cons c more => exact alone

mutual

/-- Code that is closed leaves the frames as they were.  A slash at its end must not meet
a character with which it would start a comment. -/
theorem IsBody.passes {avoid text rest : List Char} {below : List Frame}
    (body : IsBody avoid text) (follows : KeepsSlash rest.head?) :
    Passes (.bracket :: below) text (.bracket :: below) rest :=
  match body with
  | .nil _ => .nil _ _
  | .ordinary _ ordinary _ later => .cons (move_ordinary ordinary) (later.passes follows)
  | .slash alone later => .cons (move_slash (alone.append follows)) (later.passes follows)
  | .lineComment _ onLine later => .pair rfl (.lineComment onLine (later.passes follows))
  | .blockComment _ unended later => .pair rfl (.blockComment unended (later.passes follows))
  | .quoted _ line inner later =>
      .cons (move_quote (isQuote_of_isLineQuote line))
        (.quoted line inner (later.passes follows))
  | .template inner later =>
      .cons (move_quote rfl)
        (.append (inner.passes rfl) (.cons (by simp [move]) (later.passes follows)))
  | .group _ _ isPair inner later =>
      have isBracket := isBracket_of_isPair isPair
      .cons (move_opener isBracket.1)
        (.append (inner.passes (keepsSlash_of_isCloser isBracket.2))
          (.cons (move_closer isBracket.2) (later.passes follows)))

/-- The inside of a template literal leaves the literal open up to its closing quote. -/
theorem IsTemplate.passes {text rest : List Char} {below : List Frame}
    (template : IsTemplate text) (follows : rest.head? = some '`') :
    Passes (.literal '`' :: below) text (.literal '`' :: below) rest :=
  match template with
  | .nil => .nil _ _
  | .escape _ later => .pair (by simp [move]) (later.passes follows)
  | @IsTemplate.char more c plain alone later => by
      refine .cons ?_ (later.passes follows)
      have noOpening : ¬ (c = '$' ∧ (more ++ rest).head? = some '{') := by
        rintro ⟨isDollar, opens⟩
        cases more with
        | nil => simp [follows] at opens
        | cons d others => exact alone isDollar opens
      generalize (more ++ rest).head? = next at noOpening ⊢
      simp [move, plain, isLineQuote, noOpening]
  | .interpolation inner later =>
      .pair rfl (.append (inner.passes (keepsSlash_of_isCloser rfl))
        (.cons (move_closer rfl) (later.passes follows)))

end

/-- What is allowed outside brackets stays allowed where less is to be avoided. -/
theorem IsBody.mono {avoid fewer text : List Char} (body : IsBody avoid text)
    (subset : fewer ⊆ avoid) : IsBody fewer text :=
  match body with
  | .nil _ => .nil _
  | .ordinary c plain kept later =>
      .ordinary c plain (fun member => kept (subset member)) (later.mono subset)
  | .slash alone later => .slash alone (later.mono subset)
  | .lineComment inside onLine later => .lineComment inside onLine (later.mono subset)
  | .blockComment inside unended later => .blockComment inside unended (later.mono subset)
  | .quoted quote line inner later => .quoted quote line inner (later.mono subset)
  | .template inner later => .template inner (later.mono subset)
  | .group opener closer isPair inner later =>
      .group opener closer isPair inner (later.mono subset)

section

variable {avoid inside rest : List Char} {closer : Char}

theorem groupLength?_of_passes (passes : Passes [.bracket] inside [.bracket] (closer :: rest))
    (isCloser : isCloser closer) :
    groupLength? (inside ++ closer :: rest) = some inside.length := by
  rw [groupLength?, passes, closing_cons, move_closer isCloser]
  simp [closing, pass]

theorem groupBody_of_passes (passes : Passes [.bracket] inside [.bracket] (closer :: rest))
    (isCloser : isCloser closer) : groupBody (inside ++ closer :: rest) = inside := by
  rw [groupBody, groupLength?_of_passes passes isCloser]
  simp

theorem IsBody.passes_closer (body : IsBody avoid inside) (isCloser : isCloser closer) :
    Passes [.bracket] inside [.bracket] (closer :: rest) :=
  body.passes (keepsSlash_of_isCloser isCloser)

/-- The inside of a bracket is what the grammar says it is, whatever follows. -/
theorem groupBody_of_isBody (body : IsBody avoid inside) (isCloser : isCloser closer) :
    groupBody (inside ++ closer :: rest) = inside :=
  groupBody_of_passes (body.passes_closer isCloser) isCloser

end

/-- A hit of a header divides the text into what stands before it, the header, and what
follows. -/
theorem append_of_mem_hits {header : Header} {text taken rest : List Char} {start : Nat}
    (hit : (start, taken, rest) ∈ hits header.hit text) :
    ∃ lead, text = lead ++ taken ++ rest ∧ start = lead.length := by
  obtain ⟨lead, after, size, rfl, place, seen⟩ := mem_hits hit
  obtain ⟨size, _, taken⟩ := Option.map_eq_some_iff.mp seen
  cases taken
  exact ⟨lead, by simp, place⟩

/-- Behind a header that ends at a brace stands what follows the brace. -/
theorem rest_of_mem_hits {header : Header} {text before behind taken rest : List Char}
    {start : Nat} (divided : text = before ++ '{' :: behind)
    (hit : (start, taken, rest) ∈ hits header.hit text)
    (ends : start + taken.length = before.length + 1) :
    (∃ lead, lead ++ taken = before ++ ['{']) ∧ rest = behind := by
  obtain ⟨lead, isText, rfl⟩ := append_of_mem_hits hit
  have same : (lead ++ taken) ++ rest = (before ++ ['{']) ++ behind := by
    rw [← isText, divided]
    simp
  obtain ⟨sameLead, sameRest⟩ := List.append_inj same (by simpa using ends)
  exact ⟨⟨lead, sameLead⟩, sameRest⟩

/-- A header at one place only introduces one block. -/
theorem blocks_eq_singleton {header : Header} {lead taken inside rest : List Char}
    (isHeader : header lead.getLast? (taken ++ rest) = some taken.length)
    (opens : taken.getLast? = some '{') (isBody : groupBody rest = inside)
    (only : ∀ other after, lead ++ (taken ++ rest) = other ++ after → other ≠ lead →
      header other.getLast? after = none) :
    blocks header (lead ++ (taken ++ rest)) =
      [{ start := lead.length, header := taken, body := inside }] := by
  have ne_nil : taken ++ rest ≠ [] := by
    intro none
    rw [(List.append_eq_nil_iff.mp none).1] at opens
    cases opens
  have seen : header.hit (lastOf lead none) (taken ++ rest) =
      some ((taken, rest), taken.length) := by
    rw [lastOf_none, Header.hit, isHeader]
    simp
  have found : hits header.hit (lead ++ (taken ++ rest)) = [(0 + lead.length, taken, rest)] :=
    hitsFrom_eq_singleton ne_nil seen fun other after same differs => by
      rw [lastOf_none, Header.hit, only other after same differs]
      rfl
  rw [blocks, found]
  simp [opens, isBody]

/-- A header that is nowhere in a text introduces no block. -/
theorem blocks_eq_nil {header : Header} {text : List Char}
    (nowhere : ∀ lead rest, text = lead ++ rest → header lead.getLast? rest = none) :
    blocks header text = [] := by
  have none : hits header.hit text = [] := hitsFrom_eq_nil fun lead rest divided => by
    rw [lastOf_none, Header.hit, nowhere lead rest divided, Option.map_none]
  rw [blocks, none, List.filterMap_nil]

/-- A bracket around a closed text ends right behind it, whatever stands before and
after.  So a header whose last character is such a brace introduces the block that holds
this text, and no other. -/
theorem bracketEnd?_of_isBody {inside : List Char} (body : IsBody [] inside)
    (before after : List Char) :
    (∀ opener closer, IsPair opener closer →
      bracketEnd? (before ++ opener :: inside ++ closer :: after) before.length =
        some (before.length + 1 + inside.length)) ∧
    ∀ (header : Header) (text : List Char), text = before ++ '{' :: inside ++ '}' :: after →
      (∀ start taken rest, (start, taken, rest) ∈ hits header.hit text → taken ≠ [] →
        start + taken.length = before.length + 1 →
        { start := start, header := taken, body := inside } ∈ blocks header text) ∧
      ∀ block ∈ blocks header text,
        block.start + block.header.length = before.length + 1 → block.body = inside := by
  have divided : before ++ '{' :: inside ++ '}' :: after =
      before ++ '{' :: (inside ++ '}' :: after) := by simp
  refine ⟨?_, fun header text isText => ⟨?_, ?_⟩⟩
  · intro opener closer isPair
    obtain ⟨isOpener, isCloser⟩ := isBracket_of_isPair isPair
    simp [bracketEnd?, isOpener, groupLength?_of_passes (body.passes_closer isCloser) isCloser]
  · intro start taken rest hit ne_nil ends
    obtain ⟨⟨lead, isHeader⟩, rfl⟩ := rest_of_mem_hits (isText.trans divided) hit ends
    have last : taken.getLast? = some '{' := by
      have := congrArg List.getLast? isHeader
      simpa [List.getLast?_append, List.getLast?_eq_some_getLast ne_nil] using this
    refine List.mem_filterMap.mpr ⟨_, hit, ?_⟩
    have isBody : groupBody (inside ++ '}' :: after) = inside := groupBody_of_isBody body rfl
    simp only [last, if_true, isBody]
  · intro block isBlock ends
    obtain ⟨⟨start, taken, rest⟩, hit, isBlock⟩ := List.mem_filterMap.mp isBlock
    simp only [Option.ite_none_right_eq_some, Option.some.injEq] at isBlock
    obtain ⟨_, rfl⟩ := isBlock
    obtain ⟨_, rfl⟩ := rest_of_mem_hits (isText.trans divided) hit ends
    exact groupBody_of_isBody body rfl

/-- A closing brace in a literal in an interpolation ends neither the interpolation nor
the block around the template. -/
theorem bracketEnd?_of_template :
    IsBody [] "`$\x7b'\x7d'\x7d`".toList ∧
      bracketEnd? "block \x7b`$\x7b'\x7d'\x7d`\x7d \x7d".toList 6 = some 15 ∧
      { start := 0, header := "block \x7b".toList, body := "`$\x7b'\x7d'\x7d`".toList } ∈
        blocks (afterKeyword "block") "block \x7b`$\x7b'\x7d'\x7d`\x7d \x7d".toList :=
  have body : IsBody [] "`$\x7b'\x7d'\x7d`".toList :=
    .template (.interpolation (.quoted '\'' rfl (.char '}' (by decide) .nil) (.nil _)) .nil)
      (.nil _)
  have found := bracketEnd?_of_isBody body "block ".toList " \x7d".toList
  ⟨body, found.1 '{' '}' (by decide),
    (found.2 _ _ rfl).1 0 "block \x7b".toList "`$\x7b'\x7d'\x7d`\x7d \x7d".toList (by decide)
      (by decide) rfl⟩

end ComponentAtlas.Source
