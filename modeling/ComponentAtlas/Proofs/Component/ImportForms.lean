/-
Module: ComponentAtlas.Proofs.Component.ImportForms
Purpose: What a form of import takes, and where it can take it.
Main exports:
  ImportKind, ImportKind.form, Leads, here_eq_some, here_keyword, clause?_clause, leads_of_here,
  Leads.kind_eq
-/
import ComponentAtlas.Component.Imports
import ComponentAtlas.Proofs.Text.Alphanumeric
import ComponentAtlas.Proofs.Text.Search
import ComponentAtlas.Proofs.Text.Words

namespace ComponentAtlas

open ComponentAtlas.Text

/-!
A form of import leads up to the first quote, and the module name goes from there to the next one
on the line.  What stands before the quote, without its blanks, ends in another way for each form.
-/

section

variable {text name rest blanks : List Char} {quote close : Char}

theorem isBlank_of_isModuleQuote {c : Char} (isQuote : isModuleQuote c) : isBlank c = false := by
  simp only [isModuleQuote, Bool.or_eq_true, decide_eq_true_eq] at isQuote
  rcases isQuote with rfl | rfl <;> rfl

theorem isWord_of_isModuleQuote {c : Char} (isQuote : isModuleQuote c) : isWord c = false := by
  simp only [isModuleQuote, Bool.or_eq_true, decide_eq_true_eq] at isQuote
  rcases isQuote with rfl | rfl <;> decide +kernel

theorem isModuleQuote_of_isBlank {c : Char} (blank : isBlank c) : isModuleQuote c = false := by
  by_contra isQuote
  rw [isBlank_of_isModuleQuote (by simpa using isQuote)] at blank
  cases blank

/-- The text between two quotes, when it names a module. -/
def IsModuleName (name : List Char) : Prop := name ≠ [] ∧ ∀ c ∈ name, isModuleChar c

theorem moduleName?_quoted (blank : isAllBlank blanks) (isQuote : isModuleQuote quote)
    (isName : IsModuleName name) (isClose : isModuleQuote close) (rest : List Char) :
    moduleName? (blanks ++ quote :: (name ++ close :: rest)) = some (name, rest) := by
  have stop : ∀ c ∈ (close :: rest).head?, isModuleChar c = false := by
    simp [isModuleChar, isClose]
  obtain ⟨isTaken, isLeft⟩ := takeWhile_append_stop isName.2 stop
  obtain ⟨c, more, rfl⟩ := List.exists_cons_of_ne_nil isName.1
  rw [moduleName?, trimLeft_append_cons blank (isBlank_of_isModuleQuote isQuote)]
  simp only [isQuote, isTaken, isLeft, isClose, if_true]

theorem moduleName?_eq_some (found : moduleName? text = some (name, rest)) :
    ∃ blanks quote close, isAllBlank blanks ∧ isModuleQuote quote ∧ IsModuleName name ∧
      isModuleQuote close ∧ text = blanks ++ quote :: (name ++ close :: rest) := by
  obtain ⟨blanks, isBlanks, divided⟩ := exists_trimLeft text
  unfold moduleName? at found
  split at found
  · cases found
  · rename_i quote inner isInner
    rw [Option.ite_none_right_eq_some] at found
    obtain ⟨isQuote, found⟩ := found
    split at found
    · cases found
    · cases found
    · rename_i close after isLeft ne_nil
      rw [Option.ite_none_right_eq_some] at found
      obtain ⟨isClose, found⟩ := found
      cases found
      have plain : ∀ c ∈ inner.takeWhile isModuleChar, isModuleChar c := fun c member =>
        List.mem_takeWhile_imp member
      refine ⟨blanks, quote, close, isBlanks, isQuote, ⟨ne_nil, plain⟩, isClose, ?_⟩
      rw [divided, isInner, ← isLeft, List.takeWhile_append_dropWhile]

/-- A name between parentheses, with the blanks around them. -/
theorem moduleCall?_quoted {outer inner behind : List Char} (isOuter : isAllBlank outer)
    (isInner : isAllBlank inner) (isQuote : isModuleQuote quote) (isName : IsModuleName name)
    (isClose : isModuleQuote close) (isBehind : isAllBlank behind) (rest : List Char) :
    moduleCall? (outer ++ '(' :: (inner ++ quote :: (name ++ close :: (behind ++ ')' :: rest)))) =
      some (name, rest) := by
  rw [moduleCall?, trimLeft_append_cons isOuter rfl]
  simp only [moduleName?_quoted isInner isQuote isName isClose, Option.bind_eq_bind,
    Option.bind_some, trimLeft_append_cons isBehind (show isBlank ')' = false from rfl)]

theorem moduleCall?_eq_some (found : moduleCall? text = some (name, rest)) :
    ∃ outer inner quote close after, isAllBlank outer ∧ isAllBlank inner ∧ isModuleQuote quote ∧
      IsModuleName name ∧ isModuleQuote close ∧
      text = outer ++ '(' :: (inner ++ quote :: (name ++ close :: after)) := by
  obtain ⟨outer, isOuter, divided⟩ := exists_trimLeft text
  unfold moduleCall? at found
  split at found
  · rename_i call isCall
    obtain ⟨⟨taken, after⟩, isTaken, closed⟩ := Option.bind_eq_some_iff.mp found
    obtain ⟨inner, quote, close, isInner, isQuote, isName, isClose, isRest⟩ :=
      moduleName?_eq_some isTaken
    rw [isRest] at isCall
    dsimp only at closed
    split at closed
    · cases closed
      exact ⟨outer, inner, quote, close, after, isOuter, isInner, isQuote, isName, isClose,
        by rw [divided, isCall]⟩
    · cases closed
  · cases found

/-- Wherever a clause ends, `from` and the name stand behind characters of a clause. -/
theorem fromClause?_eq_some {before : Option Char}
    (found : fromClause? before text = some (name, rest)) :
    ∃ clause blanks quote close, (∀ c ∈ clause, isClauseChar c) ∧ isAllBlank blanks ∧
      isModuleQuote quote ∧ IsModuleName name ∧ isModuleQuote close ∧
      text = clause ++ "from".toList ++ blanks ++ quote :: (name ++ close :: rest) := by
  induction text generalizing before with
  | nil => cases found
  | cons c text ih =>
      rw [fromClause?] at found
      split at found
      case h_1 pair isHere =>
        cases found
        rw [Option.ite_none_right_eq_some] at isHere
        obtain ⟨after, isAfter, isTaken⟩ := Option.bind_eq_some_iff.mp isHere.2
        obtain ⟨blanks, quote, close, isBlanks, isQuote, isName, isClose, rfl⟩ :=
          moduleName?_eq_some isTaken
        refine ⟨[], blanks, quote, close, by simp, isBlanks, isQuote, isName, isClose, ?_⟩
        rw [after?_eq_some.mp isAfter, List.nil_append, List.append_assoc]
      case h_2 =>
        rw [Option.ite_none_right_eq_some] at found
        obtain ⟨isClause, found⟩ := found
        obtain ⟨clause, blanks, quote, close, all, isBlanks, isQuote, isName, isClose, rfl⟩ :=
          ih found
        exact ⟨c :: clause, blanks, quote, close, List.forall_mem_cons.mpr ⟨isClause, all⟩,
          isBlanks, isQuote, isName, isClose, rfl⟩

theorem clause?_eq_some (found : clause? text = some (name, rest)) :
    ∃ clause blanks quote close, (∀ c ∈ clause, isClauseChar c) ∧ isAllBlank blanks ∧
      isModuleQuote quote ∧ IsModuleName name ∧ isModuleQuote close ∧
      text = clause ++ "from".toList ++ blanks ++ quote :: (name ++ close :: rest) := by
  cases text with
  | nil => cases found
  | cons c text =>
      rw [clause?, Option.ite_none_right_eq_some] at found
      obtain ⟨blank, found⟩ := found
      obtain ⟨clause, blanks, quote, close, all, isBlanks, isQuote, isName, isClose, rfl⟩ :=
        fromClause?_eq_some found
      have isClause : isClauseChar c := by simp [isClauseChar, blank]
      exact ⟨c :: clause, blanks, quote, close, List.forall_mem_cons.mpr ⟨isClause, all⟩, isBlanks,
        isQuote, isName, isClose, rfl⟩

end

/-- The forms of import by name. -/
inductive ImportKind where
  /-- From a module: `import a from` or `export a from`. -/
  | clause
  /-- Of a module alone: `import`. -/
  | alone
  /-- By a call: `import(`. -/
  | call
  /-- By a call: `require(`. -/
  | require
deriving DecidableEq

namespace ImportKind

def form : ImportKind → ImportForm
  | clause => { keywords := ["import", "export"], source? := clause? }
  | alone => { keywords := ["import"], source? := moduleName? }
  | call => { keywords := ["import"], source? := moduleCall? }
  | require => { keywords := ["require"], source? := moduleCall? }

def all : List ImportKind := [clause, alone, call, require]

theorem map_form_all : all.map form = importForms := rfl

/-- What stands last before the quote, without blanks. -/
def sign : ImportKind → List Char
  | clause => "from".toList
  | alone => "import".toList
  | call => "import(".toList
  | require => "require(".toList

end ImportKind

/-- The text without its blanks. -/
def unblanked (text : List Char) : List Char := text.filter (!isBlank ·)

/-- The text leads up to the quote of a form: it begins with a word, holds no quote and ends with
the sign of the form; unless the form has a clause there is nothing else. -/
structure Leads (kind : ImportKind) (lead : List Char) : Prop where
  begins : lead.head?.any isWord
  unquoted : ∀ c ∈ lead, isModuleQuote c = false
  ends : kind.sign <:+ unblanked lead
  only : kind ≠ .clause → unblanked lead = kind.sign

section

variable {kind : ImportKind} {before : Option Char} {text name : List Char} {size : Nat}

theorem unblanked_append (text more : List Char) :
    unblanked (text ++ more) = unblanked text ++ unblanked more := List.filter_append ..

theorem unblanked_of_isAllBlank (blank : isAllBlank text) : unblanked text = [] := by
  refine List.filter_eq_nil_iff.mpr fun c member => ?_
  simpa using List.all_eq_true.mp blank c member

theorem unquoted_of_isAllBlank (blank : isAllBlank text) : ∀ c ∈ text, isModuleQuote c = false :=
  fun c member => isModuleQuote_of_isBlank (List.all_eq_true.mp blank c member)

theorem isModuleQuote_of_isClauseChar {c : Char} (isClause : isClauseChar c) :
    isModuleQuote c = false := by
  by_contra isQuote
  have isQuote : isModuleQuote c := by simpa using isQuote
  simp only [isModuleQuote, Bool.or_eq_true, decide_eq_true_eq] at isQuote
  rcases isQuote with rfl | rfl
  · exact absurd isClause (by decide +kernel)
  · exact absurd isClause (by decide +kernel)

theorem begins_append {more : List Char} (begins : text.head?.any isWord) :
    (text ++ more).head?.any isWord := by
  cases text with
  | nil => cases begins
  | cons c text => exact begins

theorem Leads.of_sign {lead : List Char} (begins : lead.head?.any isWord)
    (unquoted : ∀ c ∈ lead, isModuleQuote c = false) (same : unblanked lead = kind.sign) :
    Leads kind lead :=
  ⟨begins, unquoted, same ▸ List.suffix_rfl, fun _ => same⟩

theorem leads_clause {keyword clause blanks : List Char}
    (isKeyword : keyword ∈ ["import".toList, "export".toList])
    (isClause : ∀ c ∈ clause, isClauseChar c) (isBlanks : isAllBlank blanks) :
    Leads .clause (keyword ++ clause ++ "from".toList ++ blanks) where
  begins := by
    rw [List.append_assoc, List.append_assoc]
    refine begins_append ?_
    simp only [List.mem_cons, List.not_mem_nil, or_false] at isKeyword
    rcases isKeyword with rfl | rfl <;> decide +kernel
  unquoted := by
    have plain : ∀ c ∈ keyword ++ "from".toList, isModuleQuote c = false := by
      simp only [List.mem_cons, List.not_mem_nil, or_false] at isKeyword
      rcases isKeyword with rfl | rfl <;> exact forall_mem_of_all (by decide)
    simp only [List.forall_mem_append] at plain ⊢
    exact ⟨⟨⟨plain.1, fun c member => isModuleQuote_of_isClauseChar (isClause c member)⟩, plain.2⟩,
      unquoted_of_isAllBlank isBlanks⟩
  ends := by
    rw [unblanked_append, unblanked_of_isAllBlank isBlanks, List.append_nil, unblanked_append]
    exact List.suffix_append _ _
  only other := absurd rfl other

theorem leads_alone {blanks : List Char} (isBlanks : isAllBlank blanks) :
    Leads .alone ("import".toList ++ blanks) := by
  refine .of_sign (begins_append (by decide +kernel)) ?_ ?_
  · exact List.forall_mem_append.mpr
      ⟨forall_mem_of_all (by decide), unquoted_of_isAllBlank isBlanks⟩
  · rw [unblanked_append, unblanked_of_isAllBlank isBlanks]
    rfl

theorem leads_called {keyword : String} {outer inner : List Char}
    (isCall : (keyword, kind) ∈ [("import", ImportKind.call), ("require", ImportKind.require)])
    (isOuter : isAllBlank outer) (isInner : isAllBlank inner) :
    Leads kind (keyword.toList ++ outer ++ '(' :: inner) := by
  have same : kind.sign = keyword.toList ++ ['('] ∧ keyword.toList.head?.any isWord ∧
      (∀ c ∈ keyword.toList, isModuleQuote c = false) ∧
      unblanked keyword.toList = keyword.toList := by
    simp only [List.mem_cons, Prod.mk.injEq, List.not_mem_nil, or_false] at isCall
    rcases isCall with ⟨rfl, rfl⟩ | ⟨rfl, rfl⟩ <;>
      exact ⟨by decide +kernel, by decide +kernel, forall_mem_of_all (by decide +kernel),
        by decide +kernel⟩
  obtain ⟨isSign, begins, unquoted, unblank⟩ := same
  refine .of_sign ?_ ?_ ?_
  · rw [List.append_assoc]
    exact begins_append begins
  · rw [List.forall_mem_append, List.forall_mem_append, List.forall_mem_cons]
    exact ⟨⟨unquoted, unquoted_of_isAllBlank isOuter⟩, rfl, unquoted_of_isAllBlank isInner⟩
  · rw [unblanked_append, unblanked_append, unblank, unblanked_of_isAllBlank isOuter,
      List.append_nil, isSign, List.append_cancel_left_eq, unblanked, List.filter_cons,
      if_pos (by decide +kernel), ← unblanked, unblanked_of_isAllBlank isInner]

/-- What a call takes behind its keyword leads up to a quote. -/
theorem exists_leads_called {keyword : String} {behind after : List Char}
    (isCall : (keyword, kind) ∈ [("import", ImportKind.call), ("require", ImportKind.require)])
    (found : moduleCall? behind = some (name, after)) :
    ∃ lead quote close rest, Leads kind lead ∧ isModuleQuote quote ∧ IsModuleName name ∧
      isModuleQuote close ∧
      keyword.toList ++ behind = lead ++ quote :: (name ++ close :: rest) := by
  obtain ⟨outer, inner, quote, close, rest, isOuter, isInner, isQuote, isName, isClose, rfl⟩ :=
    moduleCall?_eq_some found
  exact ⟨keyword.toList ++ outer ++ '(' :: inner, quote, close, rest,
    leads_called isCall isOuter isInner, isQuote, isName, isClose, by simp⟩

/-- Where a form finds a name, a text that leads up to it stands before the quote. -/
theorem here_eq_some (found : kind.form.here before text = some (name, size)) :
    ∃ lead quote close rest, Leads kind lead ∧ isModuleQuote quote ∧ IsModuleName name ∧
      isModuleQuote close ∧ text = lead ++ quote :: (name ++ close :: rest) := by
  rw [ImportForm.here, Option.ite_none_right_eq_some] at found
  obtain ⟨-, found⟩ := found
  obtain ⟨⟨taken, after⟩, isFirst, isHit⟩ := Option.map_eq_some_iff.mp found
  cases isHit
  obtain ⟨keyword, isKeyword, isKeywords⟩ := List.exists_of_findSome?_eq_some isFirst
  obtain ⟨behind, isBehind, isSource⟩ := Option.bind_eq_some_iff.mp isKeywords
  obtain rfl := after?_eq_some.mp isBehind
  clear found isFirst isKeywords isBehind
  cases kind with
  | clause =>
      have isWord : keyword.toList ∈ ["import".toList, "export".toList] :=
        List.mem_map_of_mem isKeyword
      obtain ⟨clause, blanks, quote, close, isClause, isBlanks, isQuote, isName, isClose, rfl⟩ :=
        clause?_eq_some isSource
      exact ⟨_, quote, close, after, leads_clause isWord isClause isBlanks, isQuote, isName,
        isClose, by simp⟩
  | alone =>
      obtain rfl := List.mem_singleton.mp isKeyword
      obtain ⟨blanks, quote, close, isBlanks, isQuote, isName, isClose, rfl⟩ :=
        moduleName?_eq_some isSource
      exact ⟨_, quote, close, after, leads_alone isBlanks, isQuote, isName, isClose, by simp⟩
  | call =>
      obtain rfl := List.mem_singleton.mp isKeyword
      exact exists_leads_called List.mem_cons_self isSource
  | require =>
      obtain rfl := List.mem_singleton.mp isKeyword
      exact exists_leads_called (List.mem_cons_of_mem _ List.mem_cons_self) isSource

/-- The first quote of a text divides it in one way. -/
theorem eq_of_unquoted {lead other rest after : List Char} {quote mark : Char}
    (unquoted : ∀ c ∈ lead, isModuleQuote c = false) (isQuote : isModuleQuote quote)
    (otherUnquoted : ∀ c ∈ other, isModuleQuote c = false) (isMark : isModuleQuote mark)
    (same : lead ++ quote :: rest = other ++ mark :: after) :
    lead = other ∧ quote = mark ∧ rest = after := by
  have taken := @takeWhile_append_stop (!isModuleQuote ·) lead (quote :: rest)
    (by simpa using unquoted) (by simpa using isQuote)
  have otherTaken := @takeWhile_append_stop (!isModuleQuote ·) other (mark :: after)
    (by simpa using otherUnquoted) (by simpa using isMark)
  rw [same] at taken
  refine ⟨taken.1.symm.trans otherTaken.1, ?_⟩
  exact List.cons.inj (taken.2.symm.trans otherTaken.2)

/-- In a clause no quote follows an earlier `from` than the last: there is no other quote, so only
blanks could stand between the two. -/
theorem moduleName?_behind_from {clause blanks rest behind : List Char} {c quote : Char}
    (isClause : ∀ d ∈ c :: clause, isClauseChar d) (isBlanks : isAllBlank blanks)
    (isQuote : isModuleQuote quote)
    (isAfter : after? "from".toList (c :: clause ++ "from".toList ++ blanks ++ quote :: rest) =
      some behind) : moduleName? behind = none := by
  by_contra found
  obtain ⟨⟨other, after⟩, found⟩ := Option.ne_none_iff_exists'.mp found
  obtain ⟨gap, mark, close, isGap, isMark, -, -, rfl⟩ := moduleName?_eq_some found
  have unquotedFrom : ∀ d ∈ "from".toList, isModuleQuote d = false :=
    forall_mem_of_all (by decide)
  have divided : (c :: clause ++ "from".toList ++ blanks) ++ quote :: rest =
      ("from".toList ++ gap) ++ mark :: (other ++ close :: after) := by
    rw [List.append_assoc "from".toList, ← after?_eq_some.mp isAfter]
  have unquoted : ∀ d ∈ c :: clause ++ "from".toList ++ blanks, isModuleQuote d = false := by
    simp only [List.forall_mem_append]
    exact ⟨⟨fun d member => isModuleQuote_of_isClauseChar (isClause d member), unquotedFrom⟩,
      unquoted_of_isAllBlank isBlanks⟩
  have otherUnquoted : ∀ d ∈ "from".toList ++ gap, isModuleQuote d = false :=
    List.forall_mem_append.mpr ⟨unquotedFrom, unquoted_of_isAllBlank isGap⟩
  have same := (eq_of_unquoted unquoted isQuote otherUnquoted isMark divided).1
  obtain rfl : c = 'f' := (List.cons.inj same).1
  have sameLength := congrArg (List.length ∘ unblanked) same
  simp only [Function.comp_apply, unblanked_append, unblanked_of_isAllBlank isBlanks,
    unblanked_of_isAllBlank isGap, List.append_nil, List.length_append] at sameLength
  have word : unblanked ('f' :: clause) = 'f' :: unblanked clause := rfl
  rw [word, List.length_cons] at sameLength
  omega

/-- The first `from` with a quote behind it ends a clause. -/
theorem fromClause?_clause {clause blanks rest : List Char} {quote close : Char}
    (isClause : ∀ c ∈ clause, isClauseChar c) (apart : startsWord (lastOf clause before))
    (isBlanks : isAllBlank blanks) (isQuote : isModuleQuote quote) (isName : IsModuleName name)
    (isClose : isModuleQuote close) :
    fromClause? before (clause ++ "from".toList ++ blanks ++ quote :: (name ++ close :: rest)) =
      some (name, rest) := by
  have named := moduleName?_quoted isBlanks isQuote isName isClose rest
  induction clause generalizing before with
  | nil =>
      have isAfter : after? "from".toList
          ('f' :: ("rom".toList ++ (blanks ++ quote :: (name ++ close :: rest)))) =
            some (blanks ++ quote :: (name ++ close :: rest)) := after?_append "from".toList _
      rw [lastOf_nil] at apart
      rw [List.nil_append, List.append_assoc, show "from".toList = 'f' :: "rom".toList from rfl,
        List.cons_append, fromClause?, if_pos apart, isAfter, Option.bind_some, named]
  | cons c clause ih =>
      have later := ih (fun d member => isClause d (List.mem_cons_of_mem c member))
        (by rwa [lastOf_cons] at apart)
      rw [List.cons_append, List.cons_append, List.cons_append, fromClause?]
      split
      case h_2 => rw [if_pos (isClause c List.mem_cons_self), later]
      case h_1 found isHere =>
        rw [Option.ite_none_right_eq_some] at isHere
        obtain ⟨behind, isAfter, isFound⟩ := Option.bind_eq_some_iff.mp isHere.2
        rw [moduleName?_behind_from isClause isBlanks isQuote isAfter] at isFound
        cases isFound

/-- Behind a keyword of the form and what the form expects, the form takes the name. -/
theorem here_keyword {keyword : String} {behind taken rest : List Char}
    (starts : startsWord before) (isKeyword : keyword ∈ kind.form.keywords)
    (source : kind.form.source? behind = some (name, rest))
    (divided : keyword.toList ++ behind = taken ++ rest) :
    kind.form.here before (taken ++ rest) = some (name, taken.length) := by
  have searched : (kind.form.keywords.findSome? fun word =>
      (after? word.toList (keyword.toList ++ behind)).bind kind.form.source?) =
        some (name, rest) := by
    have here : (after? keyword.toList (keyword.toList ++ behind)).bind kind.form.source? =
        some (name, rest) := by rw [after?_append, Option.bind_some, source]
    have first : ∀ words, kind.form.keywords = keyword :: words →
        (kind.form.keywords.findSome? fun word =>
          (after? word.toList (keyword.toList ++ behind)).bind kind.form.source?) =
            some (name, rest) := by
      rintro words isKeywords
      rw [isKeywords, List.findSome?_cons, here]
    cases kind with
    | clause =>
        rcases List.mem_cons.mp isKeyword with rfl | isKeyword
        · exact first _ rfl
        · obtain rfl := List.mem_singleton.mp isKeyword
          have notFirst : after? "import".toList ("export".toList ++ behind) = none := rfl
          rw [show ImportKind.clause.form.keywords = ["import", "export"] from rfl,
            List.findSome?_cons, notFirst, Option.bind_none, List.findSome?_cons, here]
    | alone => exact first [] (by rw [List.mem_singleton.mp isKeyword]; rfl)
    | call => exact first [] (by rw [List.mem_singleton.mp isKeyword]; rfl)
    | require => exact first [] (by rw [List.mem_singleton.mp isKeyword]; rfl)
  rw [ImportForm.here, if_pos starts, ← divided, searched, Option.map_some, divided]
  simp

theorem clause?_clause {clause blanks rest : List Char} {quote close : Char}
    (begins : clause.head?.any isBlank) (isClause : ∀ c ∈ clause, isClauseChar c)
    (apart : startsWord clause.getLast?) (isBlanks : isAllBlank blanks)
    (isQuote : isModuleQuote quote) (isName : IsModuleName name) (isClose : isModuleQuote close) :
    clause? (clause ++ "from".toList ++ blanks ++ quote :: (name ++ close :: rest)) =
      some (name, rest) := by
  cases clause with
  | nil => cases begins
  | cons c clause =>
      rw [List.forall_mem_cons] at isClause
      have apart : startsWord (lastOf clause (some c)) := by
        rwa [← lastOf_cons c clause none, lastOf_none]
      rw [List.cons_append, List.cons_append, List.cons_append, clause?,
        if_pos (show isBlank c from begins),
        fromClause?_clause isClause.2 apart isBlanks isQuote isName isClose]

/-- What a form finds lies behind the first quote, and what stands before leads up to it. -/
theorem leads_of_here {lead rest : List Char} {quote : Char}
    (found : kind.form.here before (lead ++ quote :: rest) = some (name, size))
    (unquoted : ∀ c ∈ lead, isModuleQuote c = false) (isQuote : isModuleQuote quote) :
    Leads kind lead ∧ ∃ close after, IsModuleName name ∧ isModuleQuote close ∧
      rest = name ++ close :: after := by
  obtain ⟨other, mark, close, after, leads, isMark, isName, isClose, divided⟩ := here_eq_some found
  obtain ⟨rfl, rfl, isRest⟩ := eq_of_unquoted unquoted isQuote leads.unquoted isMark divided
  exact ⟨leads, close, after, isName, isClose, isRest⟩

/-- A form takes nothing where no word begins. -/
theorem here_eq_none {c : Char} {rest : List Char} (notWord : isWord c = false) :
    kind.form.here before (c :: rest) = none := by
  by_contra found
  obtain ⟨⟨name, size⟩, found⟩ := Option.ne_none_iff_exists'.mp found
  obtain ⟨lead, quote, close, after, leads, -, -, -, divided⟩ := here_eq_some found
  cases lead with
  | nil => cases leads.begins
  | cons d lead =>
      obtain ⟨rfl, -⟩ := List.cons.inj divided
      rw [show isWord c = true from leads.begins] at notWord
      cases notWord

/-- What leads up to a quote leads up to it in one form. -/
theorem Leads.kind_eq {other : ImportKind} {lead whole : List Char} (leads : Leads kind lead)
    (otherEnds : other.sign <:+ unblanked whole) (within : lead <:+ whole) : kind = other := by
  obtain ⟨front, rfl⟩ := within
  have ends : kind.sign <:+ unblanked (front ++ lead) := by
    rw [unblanked_append]
    exact leads.ends.trans (List.suffix_append _ _)
  have comparable : kind.sign <:+ other.sign ∨ other.sign <:+ kind.sign :=
    List.suffix_or_suffix_of_suffix ends otherEnds
  clear leads otherEnds ends
  cases kind <;> cases other <;> first | rfl | exact absurd comparable (by decide)

end

end ComponentAtlas
