/-
Module: ComponentAtlas.Proofs.Component.ImportStatement
Purpose: In a statement that imports a module its own form finds the module, and no other form
  finds anything.
Main exports:
  ImportShape, ImportStatement, ImportStatement.IsWritten, NoQuoteOnLine,
  ImportStatement.IsWritten.yields
-/
import ComponentAtlas.Proofs.Component.ImportForms
import ComponentAtlas.Proofs.Source.Lexeme
import ComponentAtlas.Proofs.Text.Hits

namespace ComponentAtlas

open ComponentAtlas.Source ComponentAtlas.Text

/-- What stands around the name of a module in a statement, its blanks spelled out. -/
inductive ImportShape where
  /-- `import a from 'm'` and `export a from 'm'`. -/
  | clause (keyword inside blanks : List Char)
  /-- `import 'm'`. -/
  | alone (blanks : List Char)
  /-- `import('m')`. -/
  | call (outer inner behind : List Char)
  /-- `const v = require('m')`. -/
  | require (space bound left right outer inner behind : List Char)

namespace ImportShape

def kind : ImportShape → ImportKind
  | clause .. => .clause
  | alone .. => .alone
  | call .. => .call
  | require .. => .require

/-- What stands before the import itself. -/
def front : ImportShape → List Char
  | clause .. | alone .. | call .. => []
  | require space bound left right .. => "const".toList ++ space ++ bound ++ left ++ '=' :: right

/-- The import up to the quote. -/
def lead : ImportShape → List Char
  | clause keyword inside blanks => keyword ++ inside ++ "from".toList ++ blanks
  | alone blanks => "import".toList ++ blanks
  | call outer inner _ => "import".toList ++ outer ++ '(' :: inner
  | require _ _ _ _ outer inner _ => "require".toList ++ outer ++ '(' :: inner

/-- What the import takes behind the name. -/
def behind : ImportShape → List Char
  | clause .. | alone .. => []
  | call _ _ behind => behind ++ [')']
  | require _ _ _ _ _ _ behind => behind ++ [')']

/-- A character that a word of a clause is made of: a letter, a digit, a low line or a dollar
sign.  Identifiers may hold others, such as combining marks. -/
def isNameChar (c : Char) : Bool := isWord c || c = '$'

/-- A clause begins with a blank, has only words, braces, commas, stars and blanks, and its last
word is not run together with the `from` behind it. -/
def IsClause (clause : List Char) : Prop :=
  clause.head?.any isBlank ∧ (∀ c ∈ clause, isClauseChar c) ∧ ¬ clause.getLast?.any isNameChar

-- Without the local instances a test of all characters there are may be found instead of one of
-- the members.
instance (clause : List Char) : Decidable (IsClause clause) :=
  letI := List.decidableBAll (isClauseChar ·) clause
  inferInstanceAs (Decidable (_ ∧ _ ∧ _))

/-- The blanks are blanks, and the rest is what the shape has there.  What a module is bound to
may be written with anything but quotes and slashes. -/
def IsWritten : ImportShape → Prop
  | clause keyword inside blanks =>
      keyword ∈ ["import".toList, "export".toList] ∧ IsClause inside ∧ isAllBlank blanks
  | alone blanks => isAllBlank blanks
  | call outer inner behind => isAllBlank outer ∧ isAllBlank inner ∧ isAllBlank behind
  | require space bound left right outer inner behind =>
      isAllBlank space ∧ space ≠ [] ∧ bound ≠ [] ∧ (∀ c ∈ bound, IsSingle c) ∧
        isAllBlank left ∧ isAllBlank right ∧
        isAllBlank outer ∧ isAllBlank inner ∧ isAllBlank behind

instance : DecidablePred IsWritten
  | clause .. => inferInstanceAs (Decidable (_ ∧ _ ∧ _))
  | alone .. => inferInstanceAs (Decidable (_ = true))
  | call .. => inferInstanceAs (Decidable (_ ∧ _ ∧ _))
  | require _ bound .. =>
      letI := List.decidableBAll IsSingle bound
      inferInstanceAs (Decidable (_ ∧ _ ∧ _ ∧ _ ∧ _ ∧ _ ∧ _ ∧ _ ∧ _))

end ImportShape

/-- A statement that imports a module and ends with a semicolon. -/
structure ImportStatement where
  shape : ImportShape
  quote : Char
  name : List Char
  /-- What stands before the semicolon. -/
  blanks : List Char

namespace ImportStatement

/-- What the form of the statement takes. -/
def taken (statement : ImportStatement) : List Char :=
  statement.shape.lead ++
    statement.quote :: (statement.name ++ statement.quote :: statement.shape.behind)

def text (statement : ImportStatement) : List Char :=
  statement.shape.front ++ statement.taken ++ (statement.blanks ++ [';'])

structure IsWritten (statement : ImportStatement) : Prop where
  shape : statement.shape.IsWritten
  quote : statement.quote = '"' ∨ statement.quote = '\''
  nonempty : statement.name ≠ []
  name : ∀ c ∈ statement.name, c ≠ '"' ∧ c ≠ '\'' ∧ c ≠ '\\' ∧ c ≠ '\n'
  blanks : isAllBlank statement.blanks

instance : DecidablePred IsWritten := fun statement =>
  letI := List.decidableBAll (fun c => c ≠ '"' ∧ c ≠ '\'' ∧ c ≠ '\\' ∧ c ≠ '\n') statement.name
  decidable_of_iff
    (statement.shape.IsWritten ∧ (statement.quote = '"' ∨ statement.quote = '\'') ∧
      statement.name ≠ [] ∧
      (∀ c ∈ statement.name, c ≠ '"' ∧ c ≠ '\'' ∧ c ≠ '\\' ∧ c ≠ '\n') ∧
      isAllBlank statement.blanks)
    ⟨fun ⟨shape, quote, nonempty, name, blanks⟩ => ⟨shape, quote, nonempty, name, blanks⟩,
      fun written => ⟨written.shape, written.quote, written.nonempty, written.name, written.blanks⟩⟩

end ImportStatement

theorem isModuleQuote_of_isModuleChar {c : Char} (isChar : isModuleChar c) :
    isModuleQuote c = false := by
  simp only [isModuleChar, Bool.and_eq_true, Bool.not_eq_true'] at isChar
  exact isChar.1

/-- There is no quote before the next line feed. -/
def NoQuoteOnLine (rest : List Char) : Prop :=
  ∀ c ∈ rest.takeWhile (· ≠ '\n'), isModuleQuote c = false

section

variable {text rest : List Char}

theorem noQuoteOnLine_of_isAllBlank (blank : isAllBlank text) : NoQuoteOnLine text :=
  fun c member => unquoted_of_isAllBlank blank c ((List.takeWhile_sublist _).subset member)

theorem NoQuoteOnLine.append (unquoted : ∀ c ∈ text, isModuleQuote c = false)
    (quiet : NoQuoteOnLine rest) : NoQuoteOnLine (text ++ rest) := by
  intro c member
  rw [List.takeWhile_append] at member
  split at member
  · rcases List.mem_append.mp member with member | member
    · exact unquoted c member
    · exact quiet c member
  · exact unquoted c ((List.takeWhile_sublist _).subset member)

/-- What stands behind a line feed does not matter. -/
theorem noQuoteOnLine_append_of_mem (unquoted : ∀ c ∈ text, isModuleQuote c = false)
    (ends : '\n' ∈ text) (rest : List Char) : NoQuoteOnLine (text ++ rest) := by
  intro c member
  rw [List.takeWhile_append] at member
  split at member
  case isTrue whole =>
    have all := (List.takeWhile_prefix (p := (· ≠ '\n'))).eq_of_length whole
    have := List.mem_takeWhile_imp (p := (· ≠ '\n')) (all.symm ▸ ends)
    simp at this
  case isFalse => exact unquoted c ((List.takeWhile_sublist _).subset member)

/-- No name ends on the line. -/
theorem NoQuoteOnLine.not_name {name after : List Char} {close : Char} (quiet : NoQuoteOnLine rest)
    (isName : IsModuleName name) (isClose : isModuleQuote close) :
    rest ≠ name ++ close :: after := by
  rintro rfl
  have plain : ∀ c ∈ name, decide (c ≠ '\n') := by
    intro c member
    have isChar := isName.2 c member
    simp only [isModuleChar, Bool.and_eq_true] at isChar
    exact isChar.2
  have notBreak : close ≠ '\n' := by
    rintro rfl
    cases isClose
  have onLine : close ∈ (name ++ close :: after).takeWhile (· ≠ '\n') := by
    rw [List.takeWhile_append_of_pos plain, List.takeWhile_cons, if_pos (by simpa using notBreak)]
    simp
  rw [quiet close onLine] at isClose
  cases isClose

end

section

variable {shape : ImportShape} {statement : ImportStatement} {kind : ImportKind}
  {before : Option Char} {rest : List Char}

theorem ImportShape.IsWritten.leads (written : shape.IsWritten) : Leads shape.kind shape.lead := by
  cases shape with
  | clause keyword inside blanks => exact leads_clause written.1 written.2.1.2.1 written.2.2
  | alone blanks => exact leads_alone written
  | call outer inner behind =>
      exact leads_called (List.mem_cons_self) written.1 written.2.1
  | require space bound left right outer inner behind =>
      obtain ⟨-, -, -, -, -, -, isOuter, isInner, -⟩ := written
      exact leads_called (List.mem_cons_of_mem _ List.mem_cons_self) isOuter isInner

theorem ImportStatement.IsWritten.isModuleQuote (written : statement.IsWritten) :
    isModuleQuote statement.quote := by
  rcases written.quote with isQuote | isQuote <;> rw [isQuote] <;> rfl

theorem ImportStatement.IsWritten.isModuleName (written : statement.IsWritten) :
    IsModuleName statement.name := by
  refine ⟨written.nonempty, fun c member => ?_⟩
  obtain ⟨notDouble, notSingle, -, notBreak⟩ := written.name c member
  simp [isModuleChar, ComponentAtlas.isModuleQuote, notDouble, notSingle, notBreak]

/-- A call takes the text up to its closing parenthesis. -/
theorem here_called {keyword : String} {outer inner behind name : List Char} {quote : Char}
    (starts : startsWord before)
    (isCall : (keyword, kind) ∈ [("import", ImportKind.call), ("require", ImportKind.require)])
    (isOuter : isAllBlank outer) (isInner : isAllBlank inner) (isBehind : isAllBlank behind)
    (isQuote : isModuleQuote quote) (isName : IsModuleName name) (rest : List Char) :
    kind.form.here before
        (keyword.toList ++ outer ++ '(' :: inner ++ quote :: (name ++ quote :: (behind ++ [')'])) ++
          rest) =
      some (name, (keyword.toList ++ outer ++ '(' :: inner ++
        quote :: (name ++ quote :: (behind ++ [')']))).length) := by
  have isForm : kind.form.keywords = [keyword] ∧ kind.form.source? = moduleCall? := by
    simp only [List.mem_cons, Prod.mk.injEq, List.not_mem_nil, or_false] at isCall
    rcases isCall with ⟨rfl, rfl⟩ | ⟨rfl, rfl⟩ <;> exact ⟨rfl, rfl⟩
  have isKeyword : keyword ∈ kind.form.keywords := isForm.1 ▸ List.mem_singleton_self keyword
  have isSource : kind.form.source?
      (outer ++ '(' :: (inner ++ quote :: (name ++ quote :: (behind ++ ')' :: rest)))) =
        some (name, rest) := by
    rw [isForm.2]
    exact moduleCall?_quoted isOuter isInner isQuote isName isQuote isBehind rest
  refine here_keyword starts isKeyword isSource ?_
  simp only [List.append_assoc, List.cons_append, List.nil_append]

/-- The form of a statement takes the import with the name in it. -/
theorem ImportStatement.IsWritten.here_taken (written : statement.IsWritten)
    (starts : startsWord before) (rest : List Char) :
    statement.shape.kind.form.here before (statement.taken ++ rest) =
      some (statement.name, statement.taken.length) := by
  have isQuote := written.isModuleQuote
  have isName := written.isModuleName
  obtain ⟨shape, quote, name, after⟩ := statement
  have isShape : shape.IsWritten := written.shape
  cases shape with
  | clause keyword inside blanks =>
      obtain ⟨isKeyword, ⟨begins, isClause, apart⟩, isBlanks⟩ := isShape
      have apart : startsWord inside.getLast? := by
        cases last : inside.getLast? with
        | none => rfl
        | some c =>
            rw [last] at apart
            have notName : ¬ (isWord c ∨ c = '$') := by simpa [ImportShape.isNameChar] using apart
            simpa [startsWord] using fun word => notName (.inl word)
      have isSource : ImportKind.clause.form.source?
          (inside ++ "from".toList ++ blanks ++ quote :: (name ++ quote :: rest)) =
            some (name, rest) :=
        clause?_clause begins isClause apart isBlanks isQuote isName isQuote
      have divided : keyword ++
          (inside ++ "from".toList ++ blanks ++ quote :: (name ++ quote :: rest)) =
            taken ⟨.clause keyword inside blanks, quote, name, after⟩ ++ rest := by
        show _ = (keyword ++ inside ++ "from".toList ++ blanks) ++
          quote :: (name ++ quote :: []) ++ rest
        simp only [List.append_assoc, List.cons_append, List.nil_append]
      obtain ⟨word, isWord, rfl⟩ : ∃ word ∈ ["import", "export"], word.toList = keyword :=
        List.mem_map.mp isKeyword
      exact here_keyword starts isWord isSource divided
  | alone blanks =>
      have isSource : ImportKind.alone.form.source? (blanks ++ quote :: (name ++ quote :: rest)) =
          some (name, rest) := moduleName?_quoted isShape isQuote isName isQuote rest
      have divided : "import".toList ++ (blanks ++ quote :: (name ++ quote :: rest)) =
          taken ⟨.alone blanks, quote, name, after⟩ ++ rest := by
        show _ = ("import".toList ++ blanks) ++ quote :: (name ++ quote :: []) ++ rest
        simp only [List.append_assoc, List.cons_append, List.nil_append]
      exact here_keyword starts (List.mem_singleton_self _) isSource divided
  | call outer inner behind =>
      obtain ⟨isOuter, isInner, isBehind⟩ := isShape
      exact here_called starts List.mem_cons_self isOuter isInner isBehind isQuote isName rest
  | require space bound left right outer inner behind =>
      obtain ⟨-, -, -, -, -, -, isOuter, isInner, isBehind⟩ := isShape
      exact here_called starts (List.mem_cons_of_mem _ List.mem_cons_self) isOuter isInner isBehind
        isQuote isName rest

theorem isWord_of_isAllBlank {text : List Char} (blank : isAllBlank text) :
    ∀ c ∈ text, isWord c = false :=
  fun c member => isWord_of_isBlank (List.all_eq_true.mp blank c member)

theorem startsWord_lastOf {text : List Char} (plain : ∀ c ∈ text, isWord c = false)
    (starts : startsWord before) : startsWord (lastOf text before) := by
  cases last : text.getLast? with
  | none => rwa [lastOf, last, Option.none_or]
  | some c =>
      rw [lastOf, last, Option.some_or]
      simpa [startsWord] using plain c (List.mem_of_getLast? last)

theorem isSingle_of_isAllBlank {text : List Char} (blank : isAllBlank text) :
    ∀ c ∈ text, IsSingle c := fun c member =>
  isSingle_of_isOrdinary (isOrdinary_of_isBlank (List.all_eq_true.mp blank c member))

theorem isSingle_of_isClauseChar {c : Char} (isClause : isClauseChar c) : IsSingle c := by
  have : (isWord c ∨ isBlank c) ∨ c ∈ ['$', '*', '{', '}', ','] := by
    simpa [isClauseChar] using isClause
  rcases this with (word | blank) | member
  · exact isSingle_of_isOrdinary (isOrdinary_of_isWord word)
  · exact isSingle_of_isOrdinary (isOrdinary_of_isBlank blank)
  · have all : ∀ mark ∈ ['$', '*', '{', '}', ','], isQuote mark = false ∧ mark ≠ '/' :=
      forall_mem_of_all (by decide)
    exact all c member

/-- No literal and no comment begins in a word of a statement. -/
theorem isSingle_of_mem_word {word : String}
    (isWord : word ∈ ["import", "export", "require", "const", "from"]) :
    ∀ c ∈ word.toList, IsSingle c := by
  have all : ∀ c ∈ ["import", "export", "require", "const", "from"].flatMap String.toList,
      isQuote c = false ∧ c ≠ '/' := forall_mem_of_all (by decide)
  exact fun c member => all c (List.mem_flatMap.mpr ⟨word, isWord, member⟩)

/-- No literal and no comment begins before the name or behind it. -/
theorem ImportShape.IsWritten.isSingle (written : shape.IsWritten) :
    (∀ c ∈ shape.front, IsSingle c) ∧ (∀ c ∈ shape.lead, IsSingle c) ∧
      ∀ c ∈ shape.behind, IsSingle c := by
  have none : ∀ c ∈ ([] : List Char), IsSingle c := by simp
  have called : ∀ word ∈ ["import", "export", "require", "const", "from"],
      ∀ outer inner : List Char, isAllBlank outer → isAllBlank inner →
        ∀ c ∈ word.toList ++ outer ++ '(' :: inner, IsSingle c := by
    intro word isWord outer inner isOuter isInner
    rw [List.forall_mem_append, List.forall_mem_append, List.forall_mem_cons]
    exact ⟨⟨isSingle_of_mem_word isWord, isSingle_of_isAllBlank isOuter⟩, ⟨rfl, by decide⟩,
      isSingle_of_isAllBlank isInner⟩
  have closed : ∀ behind : List Char, isAllBlank behind → ∀ c ∈ behind ++ [')'], IsSingle c := by
    intro behind blank
    rw [List.forall_mem_append, List.forall_mem_singleton]
    exact ⟨isSingle_of_isAllBlank blank, rfl, by decide⟩
  cases shape with
  | clause keyword inside blanks =>
      obtain ⟨isImport, ⟨-, isClause, -⟩, isBlanks⟩ := written
      refine ⟨none, ?_, none⟩
      show ∀ c ∈ keyword ++ inside ++ "from".toList ++ blanks, IsSingle c
      simp only [List.forall_mem_append]
      obtain ⟨word, isWord, rfl⟩ : ∃ word ∈ ["import", "export"], word.toList = keyword :=
        List.mem_map.mp isImport
      have isKeyword :=
        isSingle_of_mem_word (List.mem_append_left ["require", "const", "from"] isWord)
      have isInside := fun c member => isSingle_of_isClauseChar (isClause c member)
      exact ⟨⟨⟨isKeyword, isInside⟩, isSingle_of_mem_word (by simp)⟩,
        isSingle_of_isAllBlank isBlanks⟩
  | alone blanks =>
      refine ⟨none, ?_, none⟩
      show ∀ c ∈ "import".toList ++ blanks, IsSingle c
      rw [List.forall_mem_append]
      exact ⟨isSingle_of_mem_word (by simp), isSingle_of_isAllBlank written⟩
  | call outer inner behind =>
      exact ⟨none, called "import" (by simp) outer inner written.1 written.2.1,
        closed behind written.2.2⟩
  | require space bound left right outer inner behind =>
      obtain ⟨isSpace, -, -, isBound, isLeft, isRight, isOuter, isInner, isBehind⟩ := written
      refine ⟨?_, called "require" (by simp) outer inner isOuter isInner, closed behind isBehind⟩
      show ∀ c ∈ "const".toList ++ space ++ bound ++ left ++ '=' :: right, IsSingle c
      simp only [List.forall_mem_append, List.forall_mem_cons]
      exact ⟨⟨⟨⟨isSingle_of_mem_word (by simp), isSingle_of_isAllBlank isSpace⟩, isBound⟩,
        isSingle_of_isAllBlank isLeft⟩, ⟨rfl, by decide⟩, isSingle_of_isAllBlank isRight⟩

theorem isModuleQuote_of_isSingle {c : Char} (single : IsSingle c) :
    ComponentAtlas.isModuleQuote c = false := by
  have notQuote := single.1
  rw [isQuote, Bool.or_eq_false_iff] at notQuote
  exact notQuote.1

/-- Behind the name stand blanks and a parenthesis at most. -/
theorem ImportShape.IsWritten.isWord_behind (written : shape.IsWritten) :
    ∀ c ∈ shape.behind, isWord c = false := by
  have closed : ∀ behind : List Char, isAllBlank behind →
      ∀ c ∈ behind ++ [')'], isWord c = false := by
    intro behind blank
    rw [List.forall_mem_append, List.forall_mem_singleton]
    exact ⟨isWord_of_isAllBlank blank, by decide +kernel⟩
  cases shape with
  | clause => exact fun c member => (List.not_mem_nil member).elim
  | alone => exact fun c member => (List.not_mem_nil member).elim
  | call => exact closed _ written.2.2
  | require =>
      obtain ⟨-, -, -, -, -, -, -, -, isBehind⟩ := written
      exact closed _ isBehind

/-- Right before a call of `require` stands no word. -/
theorem ImportShape.IsWritten.startsWord_front (written : shape.IsWritten)
    (starts : startsWord before) : startsWord (lastOf shape.front before) := by
  cases shape with
  | require space bound left right outer inner behind =>
      obtain ⟨-, -, -, -, -, isRight, -⟩ := written
      show startsWord (lastOf ("const".toList ++ space ++ bound ++ left ++ '=' :: right) before)
      rw [lastOf_append, lastOf_cons]
      exact startsWord_lastOf (isWord_of_isAllBlank isRight) (by decide +kernel)
  | clause => exact starts
  | alone => exact starts
  | call => exact starts

/-- What leads up to the quote begins nowhere in front of the import. -/
theorem ImportShape.IsWritten.not_leads {inner : List Char} (written : shape.IsWritten)
    (within : inner <:+ shape.front) (ne_nil : inner ≠ []) :
    ¬ Leads kind (inner ++ shape.lead) := by
  intro leads
  have own := written.leads
  have isWithin : inner ++ shape.lead <:+ inner ++ shape.lead := List.suffix_rfl
  have ownEnds : shape.kind.sign <:+ unblanked (inner ++ shape.lead) := by
    rw [unblanked_append]
    exact own.ends.trans (List.suffix_append _ _)
  obtain rfl := leads.kind_eq ownEnds isWithin
  have notClause : shape.kind ≠ .clause := by
    rintro isClause
    cases shape with
    | clause => exact ne_nil (List.suffix_nil.mp within)
    | _ => cases isClause
  -- Both are the sign and nothing else, so there are only blanks between.
  have same := leads.only notClause
  rw [unblanked_append, own.only notClause] at same
  have none : unblanked inner = [] := by
    have := congrArg List.length same
    rw [List.length_append] at this
    exact List.length_eq_zero_iff.mp (by omega)
  obtain ⟨c, more, rfl⟩ := List.exists_cons_of_ne_nil ne_nil
  have word : isBlank c = false := isBlank_of_isWord leads.begins
  rw [unblanked, List.filter_cons, if_pos (by simp [word])] at none
  cases none

section

variable {other after closing : List Char} {c : Char} {quote : Char} {name : List Char}

/-- In the name no form takes anything: there the next quote begins no name. -/
theorem here_in_name {inner : List Char} (isQuote : ComponentAtlas.isModuleQuote quote)
    (isName : IsModuleName name)
    (plain : ∀ c ∈ closing, ComponentAtlas.isModuleQuote c = false) (quiet : NoQuoteOnLine rest)
    (within : inner <:+ name) :
    kind.form.here before (inner ++ quote :: (closing ++ rest)) = none := by
  have unquoted : ∀ c ∈ inner, ComponentAtlas.isModuleQuote c = false := fun c member =>
    isModuleQuote_of_isModuleChar (isName.2 c (within.subset member))
  by_contra found
  obtain ⟨⟨taken, size⟩, isFound⟩ := Option.ne_none_iff_exists'.mp found
  obtain ⟨-, close, behind, isTaken, isClose, ends⟩ := leads_of_here isFound unquoted isQuote
  exact (quiet.append plain).not_name isTaken isClose ends

/-- From the quote on no form takes anything. -/
theorem here_behind_lead (isQuote : ComponentAtlas.isModuleQuote quote) (isName : IsModuleName name)
    (plain : ∀ c ∈ closing, isWord c = false ∧ ComponentAtlas.isModuleQuote c = false)
    (quiet : NoQuoteOnLine rest)
    (divided : quote :: (name ++ quote :: closing) = other ++ c :: after) :
    kind.form.here before (c :: after ++ rest) = none := by
  cases word : isWord c with
  | false => exact here_eq_none word
  | true =>
      have notQuote : c ≠ quote := by
        rintro rfl
        rw [isWord_of_isModuleQuote isQuote] at word
        cases word
      have notClosing : c ∉ closing := by
        intro member
        rw [(plain c member).1] at word
        cases word
      have regrouped : (quote :: name) ++ quote :: closing = other ++ c :: after := divided
      rcases List.append_eq_append_iff.mp regrouped with
        ⟨more, -, isMore⟩ | ⟨inner, isInner, isRest⟩
      · have member : c ∈ quote :: closing := isMore ▸ by simp
        rcases List.mem_cons.mp member with same | member
        · exact absurd same notQuote
        · exact absurd member notClosing
      · cases inner with
        | nil => exact absurd (List.cons.inj isRest).1 notQuote
        | cons d inner =>
            obtain rfl : c = d := (List.cons.inj isRest).1
            rw [isRest, List.append_assoc]
            refine here_in_name isQuote isName (fun c member => (plain c member).2) quiet ?_
            cases other with
            | nil => exact absurd (List.cons.inj isInner).1.symm notQuote
            | cons first other => exact ⟨other, (List.cons.inj isInner).2.symm⟩

/-- What stands behind the name, with the semicolon. -/
theorem ImportStatement.IsWritten.closing_plain (written : statement.IsWritten) :
    ∀ c ∈ statement.shape.behind ++ (statement.blanks ++ [';']),
      isWord c = false ∧ ComponentAtlas.isModuleQuote c = false := by
  rw [List.forall_mem_append, List.forall_mem_append, List.forall_mem_singleton]
  exact ⟨fun c member => ⟨written.shape.isWord_behind c member,
      isModuleQuote_of_isSingle (written.shape.isSingle.2.2 c member)⟩,
    fun c member => ⟨isWord_of_isAllBlank written.blanks c member,
      unquoted_of_isAllBlank written.blanks c member⟩,
    by decide +kernel, rfl⟩

/-- Where a form takes something, what leads up to the quote begins. -/
theorem ImportStatement.IsWritten.leads_of_here {found : List Char × Nat}
    (written : statement.IsWritten) (quiet : NoQuoteOnLine rest)
    (divided : statement.text = other ++ c :: after)
    (seen : kind.form.here before (c :: after ++ rest) = some found) :
    ∃ inner, statement.shape.front ++ statement.shape.lead = other ++ inner ∧ Leads kind inner := by
  have isQuote := written.isModuleQuote
  have isName := written.isModuleName
  have unquoted : ∀ c ∈ statement.shape.front ++ statement.shape.lead,
      ComponentAtlas.isModuleQuote c = false :=
    List.forall_mem_append.mpr
      ⟨fun c member => isModuleQuote_of_isSingle (written.shape.isSingle.1 c member),
        written.shape.leads.unquoted⟩
  have whole : statement.text = (statement.shape.front ++ statement.shape.lead) ++
      statement.quote :: (statement.name ++
        statement.quote :: (statement.shape.behind ++ (statement.blanks ++ [';']))) := by
    simp [ImportStatement.text, ImportStatement.taken]
  rw [whole] at divided
  rcases List.append_eq_append_iff.mp divided with ⟨more, -, isMore⟩ | ⟨inner, isInner, isRest⟩
  · rw [here_behind_lead isQuote isName written.closing_plain quiet isMore] at seen
    cases seen
  · refine ⟨inner, isInner, ?_⟩
    rw [isRest, List.append_assoc, List.cons_append] at seen
    rw [isInner, List.forall_mem_append] at unquoted
    exact (ComponentAtlas.leads_of_here seen unquoted.2 isQuote).1

end

/-- In a statement its own form finds the name and no other form finds anything. -/
theorem ImportStatement.IsWritten.yields (written : statement.IsWritten)
    (starts : startsWord before) (quiet : NoQuoteOnLine rest) (kind : ImportKind) :
    Yields kind.form.here before statement.text
      (if statement.shape.kind = kind then [(statement.shape.front.length, statement.name)] else [])
      rest := by
  split
  case isTrue own =>
    subst own
    have passes : Yields statement.shape.kind.form.here before statement.shape.front []
        (statement.taken ++ (statement.blanks ++ [';'] ++ rest)) := by
      refine .pass fun other c after divided => ?_
      by_contra found
      obtain ⟨found, seen⟩ := Option.ne_none_iff_exists'.mp found
      have whole : statement.text =
          other ++ c :: (after ++ statement.taken ++ (statement.blanks ++ [';'])) := by
        simp [ImportStatement.text, divided]
      obtain ⟨inner, isInner, leads⟩ := written.leads_of_here quiet whole (by simpa using seen)
      rw [divided, List.append_assoc, List.append_cancel_left_eq] at isInner
      rw [← isInner] at leads
      exact written.shape.not_leads ⟨other, divided.symm⟩ (List.cons_ne_nil _ _) leads
    have hit : Yields statement.shape.kind.form.here (lastOf statement.shape.front before)
        statement.taken [(0, statement.name)] (statement.blanks ++ [';'] ++ rest) :=
      .hit (by simp [ImportStatement.taken])
        (written.here_taken (written.shape.startsWord_front starts) _)
    have ends : Yields statement.shape.kind.form.here
        (lastOf (statement.shape.front ++ statement.taken) before) (statement.blanks ++ [';']) []
        rest := by
      refine .pass fun other c after divided => here_eq_none ?_
      have member : c ∈ statement.blanks ++ [';'] := divided ▸ by simp
      exact (written.closing_plain c (List.mem_append_right _ member)).1
    simpa [ImportStatement.text] using (passes.append hit).append ends
  case isFalse differs =>
    refine .pass fun other c after divided => ?_
    by_contra found
    obtain ⟨found, seen⟩ := Option.ne_none_iff_exists'.mp found
    obtain ⟨inner, isInner, leads⟩ := written.leads_of_here quiet divided seen
    have ownEnds : statement.shape.kind.sign <:+
        unblanked (statement.shape.front ++ statement.shape.lead) := by
      rw [unblanked_append]
      exact written.shape.leads.ends.trans (List.suffix_append _ _)
    exact differs (leads.kind_eq ownEnds ⟨other, isInner.symm⟩).symm

end

end ComponentAtlas
