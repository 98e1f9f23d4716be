/-
Module: ComponentAtlas.Proofs.Component.Dependencies
Purpose: The dependencies of a source that is made of import statements are the modules named in
  them.
Main exports:
  ImportScript, ImportScript.IsWritten, withoutComments_importScript, hitsFrom_statements,
  importsIn_statements, distinct_eq_eraseDups, dependencies_importScript
-/
import ComponentAtlas.Proofs.Component.ImportStatement
import ComponentAtlas.Proofs.Component.Imports
import ComponentAtlas.Proofs.Source.CommentPlace
import ComponentAtlas.Proofs.Source.Comments

namespace ComponentAtlas

open ComponentAtlas.Source ComponentAtlas.Text

/-- A source of import statements, each with what stands before it, and what stands behind the
last one. -/
structure ImportScript where
  items : List (List Char × ImportStatement)
  trail : List Char

/-- The statements with what stands before each. -/
def statementsText (items : List (List Char × ImportStatement)) : List Char :=
  items.flatMap fun item => item.1 ++ item.2.text

/-- Blanks and comments at the end of a source, where a line comment may be the last line. -/
def IsTrail (trail : List Char) : Prop :=
  ∃ gap rest, trail = gap ++ rest ∧ IsGap gap ∧
    (rest = [] ∨ ∃ inside, rest = '/' :: '/' :: inside ∧ '\n' ∉ inside)

namespace ImportScript

def text (script : ImportScript) : List Char := statementsText script.items ++ script.trail

/-- The names of the modules in the order of their statements. -/
def names (script : ImportScript) : List (List Char) := script.items.map (·.2.name)

/-- There are blanks and comments between the statements, and a line feed that puts each on a line
of its own. -/
structure IsWritten (script : ImportScript) : Prop where
  statements : ∀ item ∈ script.items, IsGap item.1 ∧ item.2.IsWritten
  lines : ∀ item ∈ script.items.tail, '\n' ∈ item.1
  trail : IsTrail script.trail

end ImportScript

/-!
Without its comments the source has blanks between the statements.
-/

section

variable {items : List (List Char × ImportStatement)} {statement : ImportStatement}
  {gap rest trail text : List Char}

theorem withoutComments_append_of_isSingle (single : ∀ c ∈ text, IsSingle c) (rest : List Char) :
    withoutComments (text ++ rest) = text ++ withoutComments rest := by
  induction text with
  | nil => rfl
  | cons c text ih =>
      rw [List.forall_mem_cons] at single
      rw [List.cons_append, withoutComments_single single.1, ih single.2, List.cons_append]

/-- No comment is in a statement. -/
theorem ImportStatement.IsWritten.withoutComments_append (written : statement.IsWritten)
    (rest : List Char) :
    withoutComments (statement.text ++ rest) = statement.text ++ withoutComments rest := by
  have isSingle := written.shape.isSingle
  have ends : ∀ c ∈ statement.shape.behind ++ (statement.blanks ++ [';']), IsSingle c := by
    rw [List.forall_mem_append, List.forall_mem_append, List.forall_mem_singleton]
    exact ⟨isSingle.2.2, isSingle_of_isAllBlank written.blanks, rfl, by decide⟩
  have begins : ∀ c ∈ statement.shape.front ++ statement.shape.lead, IsSingle c :=
    List.forall_mem_append.mpr ⟨isSingle.1, isSingle.2.1⟩
  have literal : IsInside statement.quote statement.name := by
    refine .inl ⟨written.isModuleQuote, .of_plain fun c member => ?_⟩
    obtain ⟨notDouble, notSingle, notEscape, notBreak⟩ := written.name c member
    refine ⟨?_, notEscape, notBreak⟩
    rcases written.quote with isQuote | isQuote <;> rw [isQuote] <;> assumption
  have whole : ∀ more, statement.text ++ more = (statement.shape.front ++ statement.shape.lead) ++
      (statement.quote :: statement.name ++ statement.quote ::
        (statement.shape.behind ++ (statement.blanks ++ [';']) ++ more)) := by
    intro more
    simp [ImportStatement.text, ImportStatement.taken]
  rw [whole, whole, withoutComments_append_of_isSingle begins, withoutComments_literal literal,
    withoutComments_append_of_isSingle ends]

theorem Source.IsGap.withoutComments_append (isGap : IsGap gap) (rest : List Char) :
    withoutComments (gap ++ rest) = withoutComments gap ++ withoutComments rest := by
  have isBody : IsBody [] gap := isGap.isBody (by simp)
  exact isBody.isLexed.withoutComments_append fun ends => absurd ends isGap.not_endsInSlash

theorem isAllBlank_trail (isTrail : IsTrail trail) : isAllBlank (withoutComments trail) := by
  obtain ⟨gap, rest, rfl, isGap, isRest⟩ := isTrail
  have isBlank : isAllBlank (withoutComments rest) := by
    rcases isRest with rfl | ⟨inside, rfl, onLine⟩
    · rw [withoutComments_nil]
      rfl
    · have plain : ∀ c ∈ inside, decide (c ≠ '\n') := fun c member => by
        simpa using fun isBreak : c = '\n' => onLine (isBreak ▸ member)
      have isMark : ('/', Frame.lineComment) ∈
          [('/', Frame.lineComment), ('*', Frame.blockComment)] := List.mem_cons_self
      have ends : commentLength? ('/' :: inside ++ []) = some ('/' :: inside).length := by
        rw [List.append_nil, commentLength?_of_mark isMark,
          extent_lineComment, List.takeWhile_eq_self_iff.mpr plain, List.length_cons, Nat.add_comm]
      rw [withoutComments, ← List.append_nil ('/' :: inside), lexemes_of_commentLength? ends]
      simpa [Lexeme.uncommented] using isAllBlank_lineBreaks _
  rw [isGap.withoutComments_append, isAllBlank_append, isGap.isAllBlank_withoutComments, isBlank]
  rfl

/-- Removing comments removes no line feed. -/
theorem mem_of_thins {left : List Char} (thins : Thins left text) (isBreak : '\n' ∈ text) :
    '\n' ∈ left := by
  induction thins with
  | nil => exact isBreak
  | keep c _ ih =>
      rcases List.mem_cons.mp isBreak with rfl | later
      · exact List.mem_cons_self
      · exact List.mem_cons_of_mem _ (ih later)
  | drop c noBreak _ ih =>
      rcases List.mem_cons.mp isBreak with same | later
      · exact absurd same.symm noBreak
      · exact ih later

/-- The statements with what is left of the gaps between them. -/
def uncommentedItems (items : List (List Char × ImportStatement)) :
    List (List Char × ImportStatement) :=
  items.map fun item => (withoutComments item.1, item.2)

theorem withoutComments_statementsText (written : ∀ item ∈ items, IsGap item.1 ∧ item.2.IsWritten)
    (trail : List Char) :
    withoutComments (statementsText items ++ trail) =
      statementsText (uncommentedItems items) ++ withoutComments trail := by
  induction items with
  | nil => rfl
  | cons item items ih =>
      rw [List.forall_mem_cons] at written
      obtain ⟨⟨isGap, isWritten⟩, later⟩ := written
      have divided : ∀ (item : List Char × ImportStatement) items more,
          statementsText (item :: items) ++ more =
            item.1 ++ (item.2.text ++ (statementsText items ++ more)) := by
        intro item items more
        simp [statementsText]
      rw [uncommentedItems, List.map_cons, divided, divided, isGap.withoutComments_append,
        isWritten.withoutComments_append, ih later, uncommentedItems]

end

/-!
The statements are found one by one, each by its own form.
-/

/-- The statements with the places where their imports begin. -/
def importPlaces (offset : Nat) : List (List Char × ImportStatement) → List (Nat × ImportStatement)
  | [] => []
  | (gap, statement) :: items =>
    (offset + gap.length + statement.shape.front.length, statement) ::
      importPlaces (offset + gap.length + statement.text.length) items

/-- Nothing but blanks stands around the statements, and each is on a line of its own. -/
structure AreApart (items : List (List Char × ImportStatement)) (trail : List Char) : Prop where
  statements : ∀ item ∈ items, isAllBlank item.1 ∧ item.2.IsWritten
  lines : ∀ item ∈ items.tail, '\n' ∈ item.1
  trail : isAllBlank trail

section

variable {items : List (List Char × ImportStatement)} {item : List Char × ImportStatement}
  {trail : List Char} {kind : ImportKind}

theorem AreApart.tail (apart : AreApart (item :: items) trail) : AreApart items trail where
  statements := (List.forall_mem_cons.mp apart.statements).2
  lines other member := apart.lines other (List.mem_of_mem_tail member)
  trail := apart.trail

/-- The line of a statement holds no quote behind the semicolon. -/
theorem AreApart.noQuoteOnLine (apart : AreApart (item :: items) trail) :
    NoQuoteOnLine (statementsText items ++ trail) := by
  cases items with
  | nil => exact noQuoteOnLine_of_isAllBlank apart.trail
  | cons next items =>
      have isBlank := (apart.tail.statements next List.mem_cons_self).1
      have ends : '\n' ∈ next.1 := apart.lines next List.mem_cons_self
      have divided : statementsText (next :: items) ++ trail =
          next.1 ++ (next.2.text ++ (statementsText items ++ trail)) := by
        simp [statementsText]
      rw [divided]
      exact noQuoteOnLine_append_of_mem (unquoted_of_isAllBlank isBlank) ends _

/-- A form finds nothing among blanks. -/
theorem yields_blanks {blanks : List Char} (blank : isAllBlank blanks) (before : Option Char)
    (rest : List Char) : Yields kind.form.here before blanks [] rest := by
  refine .pass fun other c after divided => here_eq_none ?_
  exact isWord_of_isAllBlank blank c (divided ▸ by simp)

/-- A form finds the statements that have it. -/
theorem hitsFrom_statements (apart : AreApart items trail) (kind : ImportKind)
    {before : Option Char} (starts : startsWord before) (offset : Nat) :
    hitsFrom kind.form.here before offset 0 (statementsText items ++ trail) =
      ((importPlaces offset items).filter (·.2.shape.kind = kind)).map
        fun place => (place.1, place.2.name) := by
  induction items generalizing before offset with
  | nil =>
      have passes : Yields kind.form.here before trail [] [] := yields_blanks apart.trail before []
      simpa [statementsText, importPlaces, hitsFrom] using passes offset
  | cons item items ih =>
      obtain ⟨gap, statement⟩ := item
      obtain ⟨isBlank, isWritten⟩ := apart.statements _ List.mem_cons_self
      have quiet := apart.noQuoteOnLine
      have afterGap : startsWord (lastOf gap before) :=
        startsWord_lastOf (isWord_of_isAllBlank isBlank) starts
      have passes : Yields kind.form.here before gap []
          (statement.text ++ (statementsText items ++ trail)) := yields_blanks isBlank before _
      have both := passes.append (isWritten.yields afterGap quiet kind)
      have afterAll : startsWord (lastOf (gap ++ statement.text) before) := by
        have isLast : lastOf (gap ++ statement.text) before = some ';' := by
          simp [lastOf, ImportStatement.text]
        rw [isLast]
        decide +kernel
      have later := ih apart.tail afterAll (offset + (gap ++ statement.text).length)
      have divided : statementsText ((gap, statement) :: items) ++ trail =
          (gap ++ statement.text) ++ (statementsText items ++ trail) := by
        simp [statementsText]
      rw [divided, both offset, later, importPlaces, List.filter_cons, List.length_append,
        ← Nat.add_assoc]
      by_cases own : statement.shape.kind = kind
      · simp [own, Nat.add_assoc]
      · simp [own]

/-- The statements come in the order of their places. -/
theorem pairwise_importPlaces (offset : Nat) (items : List (List Char × ImportStatement)) :
    (∀ place ∈ importPlaces offset items, offset ≤ place.1) ∧
      (importPlaces offset items).Pairwise fun one other => one.1 < other.1 := by
  induction items generalizing offset with
  | nil => exact ⟨by simp [importPlaces], .nil⟩
  | cons item items ih =>
      obtain ⟨gap, statement⟩ := item
      obtain ⟨behind, ordered⟩ := ih (offset + gap.length + statement.text.length)
      have inside : statement.shape.front.length < statement.text.length := by
        simp only [ImportStatement.text, List.length_append, List.length_cons]
        omega
      rw [importPlaces]
      refine ⟨List.forall_mem_cons.mpr ⟨by dsimp only; omega, fun place member => ?_⟩,
        List.pairwise_cons.mpr ⟨fun place member => ?_, ordered⟩⟩
      · have := behind place member
        omega
      · have := behind place member
        dsimp only
        omega

theorem map_importPlaces (offset : Nat) (items : List (List Char × ImportStatement)) :
    (importPlaces offset items).map (·.2) = items.map (·.2) := by
  induction items generalizing offset with
  | nil => rfl
  | cons item items ih => rw [importPlaces, List.map_cons, List.map_cons, ih]

/-- What the forms find one after the other is all that there is. -/
theorem perm_filter_kinds (places : List (Nat × ImportStatement)) :
    (ImportKind.all.flatMap fun kind => places.filter (·.2.shape.kind = kind)).Perm places := by
  induction places with
  | nil => exact .nil
  | cons place places ih =>
      have others : ∀ kinds : List ImportKind, place.2.shape.kind ∉ kinds →
          (kinds.flatMap fun kind => (place :: places).filter (·.2.shape.kind = kind)) =
            kinds.flatMap fun kind => places.filter (·.2.shape.kind = kind) := by
        refine fun kinds absent => List.flatMap_congr fun kind member => ?_
        have differs : place.2.shape.kind ≠ kind := fun same => absent (same ▸ member)
        rw [List.filter_cons, if_neg (by simpa using differs)]
      obtain ⟨before, after, isAll, notBefore, notAfter⟩ :
          ∃ before after, ImportKind.all = before ++ place.2.shape.kind :: after ∧
            place.2.shape.kind ∉ before ∧ place.2.shape.kind ∉ after := by
        have isOne : place.2.shape.kind ∈ ImportKind.all := by
          cases place.2.shape.kind <;> decide
        obtain ⟨before, after, isAll⟩ := List.append_of_mem isOne
        have nodup : ImportKind.all.Nodup := by decide
        rw [isAll, List.nodup_middle, List.nodup_cons, List.mem_append, not_or] at nodup
        exact ⟨before, after, isAll, nodup.1⟩
      rw [isAll, List.flatMap_append, List.flatMap_cons, others before notBefore,
        others after notAfter, List.filter_cons, if_pos (by simp), List.cons_append]
      refine List.perm_middle.trans (.cons place ?_)
      rwa [isAll, List.flatMap_append, List.flatMap_cons] at ih

/-- What has its order is restored by sorting. -/
theorem mergeSort_eq_of_perm {α : Type} {found sorted : List (Nat × α)} (perm : found.Perm sorted)
    (ordered : sorted.Pairwise fun one other => one.1 < other.1) :
    (found.mergeSort fun one other => one.1 ≤ other.1) = sorted := by
  have isPerm := (List.mergeSort_perm found fun one other => one.1 ≤ other.1).trans perm
  have isSorted : (found.mergeSort fun one other => one.1 ≤ other.1).Pairwise fun one other =>
      decide (one.1 ≤ other.1) = true :=
    List.pairwise_mergeSort (fun one other third => by simpa using Nat.le_trans)
      (fun one other => by simpa using Nat.le_total _ _) found
  refine isPerm.eq_of_pairwise ?_ isSorted
    (ordered.imp fun less => by simpa using Nat.le_of_lt less)
  intro one other isOne isOther below above
  -- There is one element at a place.
  have same : other.1 = one.1 := by simp at below above; omega
  have member : other ∈ sorted.filter (·.1 = one.1) :=
    List.mem_filter.mpr ⟨isOther, by simpa using same⟩
  rw [filter_eq_singleton ordered (isPerm.subset isOne)] at member
  exact (List.mem_singleton.mp member).symm

/-- All imports of the statements, in their order. -/
theorem importsIn_statements (apart : AreApart items trail) :
    importsIn (statementsText items ++ trail) =
      (importPlaces 0 items).map fun place => (place.1, place.2.name) := by
  have found : importForms.flatMap (fun form => hits form.here (statementsText items ++ trail)) =
      (ImportKind.all.flatMap fun kind =>
        (importPlaces 0 items).filter (·.2.shape.kind = kind)).map
          fun place => (place.1, place.2.name) := by
    rw [← ImportKind.map_form_all, List.flatMap_map, List.map_flatMap]
    exact List.flatMap_congr fun kind _ => hitsFrom_statements apart kind rfl 0
  rw [importsIn, found]
  refine mergeSort_eq_of_perm ((perm_filter_kinds _).map _) ?_
  exact List.pairwise_map.mpr (pairwise_importPlaces 0 items).2

end

section

variable {α : Type} [DecidableEq α] [BEq α] [LawfulBEq α]

/-- Of each element the first occurrence is kept. -/
theorem distinct_eq_eraseDups (items : List α) : distinct items = items.eraseDups := by
  induction items using List.reverseRecOn with
  | nil => rfl
  | append_singleton items item ih =>
      rw [distinct_append_singleton, ih, List.eraseDups_append]
      by_cases known : item ∈ items
      · simp [List.mem_eraseDups, known, List.removeAll]
      · simp [List.mem_eraseDups, known, List.removeAll, List.eraseDups_cons]

end

/-- The dependencies of a source that is made of import statements, with comments between them,
are the names that begin with neither a dot nor a slash, each once, in the order of the
statements. -/
theorem dependencies_importScript (script : ImportScript) (written : script.IsWritten) :
    dependencies script.text =
      (script.names.filter fun name =>
        name.head? ≠ some '.' ∧ name.head? ≠ some '/').eraseDups := by
  have apart : AreApart (uncommentedItems script.items) (withoutComments script.trail) := by
    refine ⟨fun item member => ?_, fun item member => ?_, isAllBlank_trail written.trail⟩
    · obtain ⟨commented, isItem, rfl⟩ := List.mem_map.mp member
      obtain ⟨isGap, isWritten⟩ := written.statements commented isItem
      exact ⟨isGap.isAllBlank_withoutComments, isWritten⟩
    · rw [uncommentedItems, ← List.map_tail] at member
      obtain ⟨commented, isItem, rfl⟩ := List.mem_map.mp member
      exact mem_of_thins (.withoutComments _) (written.lines commented isItem)
  have names : ((importPlaces 0 (uncommentedItems script.items)).map (·.2)).map (·.name) =
      script.names := by
    rw [map_importPlaces, uncommentedItems, List.map_map, List.map_map]
    rfl
  rw [dependencies, ImportScript.text, withoutComments_statementsText written.statements,
    importsIn_statements apart, distinct_eq_eraseDups, ← names, List.map_map, List.map_map]
  congr 1
  refine List.filter_congr fun name _ => ?_
  simp [isExternal]

/-- A clause with an identifier that has a combining mark is no clause, and its module is lost. -/
theorem dependencies_unusual :
    dependencies "import \x7b a\u0301 \x7d from 'react';".toList = [] ∧
      dependencies "import \x7b a \x7d from 'react';".toList = ["react".toList] := by
  decide +kernel

/-- The imports of a page, at least one of each shape.  Three more are commented out: one on the
first line, one before a statement on the same line, and one at the end. -/
def pageImports : ImportScript where
  items :=
    [('/' :: '/' :: " import Ghost from 'ghost';".toList ++ ['\n'],
      ⟨.clause "import".toList " React, \x7b useState\n\x7d ".toList [' '], '\'',
        "react".toList, []⟩),
    (['\n'], ⟨.alone [' '], '"', "./global.css".toList, []⟩),
    ('\n' :: ('/' :: '*' :: " import 'old'; ".toList ++ '*' :: '/' :: [' ']),
      ⟨.alone [' '], '"', "https://cdn/polyfill".toList, []⟩),
    (['\n'], ⟨.call [] [] [], '\'', "lazy".toList, []⟩),
    (['\n', '\n'], ⟨.clause "export".toList " * ".toList [' '], '\'', "react".toList, []⟩),
    (['\n'], ⟨.require [' '] "from".toList [' '] [' '] [] [] [], '\'', "from".toList, [' ']⟩)]
  trail := [' '] ++ '/' :: '/' :: " require('gone')".toList

theorem dependencies_pageImports :
    pageImports.IsWritten ∧
      dependencies pageImports.text =
        ["react".toList, "https://cdn/polyfill".toList, "lazy".toList, "from".toList] := by
  have written : pageImports.IsWritten := by
    have line : IsGap ['\n'] := .blank '\n' rfl .nil
    have space : IsGap [' '] := .blank ' ' rfl .nil
    have trail : IsTrail pageImports.trail :=
      ⟨[' '], '/' :: '/' :: " require('gone')".toList, rfl, space,
        .inr ⟨" require('gone')".toList, rfl, by decide +kernel⟩⟩
    have statements : ∀ item ∈ pageImports.items, item.2.IsWritten :=
      forall_mem_of_all (by decide +kernel)
    have commented : IsGap ('/' :: '/' :: " import Ghost from 'ghost';".toList ++ ['\n']) :=
      .lineComment " import Ghost from 'ghost';".toList (by decide +kernel) line
    have between :
        IsGap ('\n' :: ('/' :: '*' :: " import 'old'; ".toList ++ '*' :: '/' :: [' '])) :=
      .blank '\n' rfl (.blockComment " import 'old'; ".toList (by decide +kernel) space)
    refine ⟨fun item member => ⟨?_, statements item member⟩, by decide +kernel, trail⟩
    simp only [pageImports, List.mem_cons, List.not_mem_nil, or_false] at member
    rcases member with rfl | rfl | rfl | rfl | rfl | rfl
    · exact commented
    · exact line
    · exact between
    · exact line
    · exact .blank '\n' rfl line
    · exact line
  refine ⟨written, ?_⟩
  rw [dependencies_importScript pageImports written]
  decide +kernel

end ComponentAtlas
