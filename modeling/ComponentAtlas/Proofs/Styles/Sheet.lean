/-
Module: ComponentAtlas.Proofs.Styles.Sheet
Purpose: Every declaration of a written style sheet is found, with its block and its
  value.
Main exports:
  Value, Rule, shownValue_of_isValue, sheetStyles_of_isWritten
-/
import ComponentAtlas.Proofs.Styles.Rendering

namespace ComponentAtlas.Styles

open ComponentAtlas.Text
open ComponentAtlas.Source

/-- The value of a declaration, as it stands in a script: one literal, or an expression. -/
inductive Value where
  | scalar (quote : Char) (text : List Char)
  | expression (text : List Char)
deriving Repr, DecidableEq

/-- Spaces are the only blanks of the text, and no two blanks are neighbours. -/
def IsSpaced (text : List Char) : Prop :=
  text.IsChain fun c next => isBlank c → c = ' ' ∧ isBlank next = false

instance (text : List Char) : Decidable (IsSpaced text) :=
  inferInstanceAs (Decidable (List.IsChain _ text))

/-- The text is one literal with its quotes. -/
def IsLiteral (text : List Char) : Prop :=
  ∃ quote inside, IsInside quote inside ∧ text = quote :: inside ++ [quote]

namespace Value

def written : Value → List Char
  | .scalar quote text => quote :: text ++ [quote]
  | .expression text => text

/-- The value as a record shows it. -/
def shown : Value → List Char
  | .scalar _ text => text
  | .expression text => collapse (withoutComments text)

/-- A literal has no quote of any kind inside and only single spaces; an expression is not
one literal and has neither comma nor semicolon at its end, comments apart. -/
def IsValue : Value → Prop
  | .scalar quote text =>
      IsInside quote text ∧ (∀ c ∈ text, isQuote c = false) ∧ IsSpaced (text ++ [quote])
  | .expression text =>
      IsExpression text ∧ ¬ IsLiteral (trim (withoutComments text)) ∧
        ∀ c ∈ (trimRight (withoutComments text)).getLast?, c ≠ ',' ∧ c ≠ ';'

end Value

/-- A block of a sheet holds declarations. -/
abbrev Rule := Object Value

def Rule.written (rule : Rule) : List Char := '{' :: rule.text Value.written ++ ['}']

def Rule.IsRule (rule : Rule) : Prop := rule.IsWritten Value.written Value.IsValue

/-- The call with blanks around its parenthesis, through the opening brace. -/
def callText (gap inner : List Char) : List Char :=
  "StyleSheet.create".toList ++ gap ++ '(' :: inner ++ ['{']

/-!
A value is shown as it is written, but for comments, blanks, and the quotes of a plain
literal.
-/

section

variable {avoid text rest inside : List Char} {c quote : Char}

theorem isBody_of_isInside (literal : IsInside quote inside) :
    IsBody avoid (quote :: inside ++ [quote]) := by
  rcases literal with ⟨line, quoted⟩ | ⟨rfl, template⟩
  · exact .quoted quote line quoted (.nil _)
  · exact .template template (.nil _)

theorem isBlank_of_isQuote (isQuote : isQuote quote) : isBlank quote = false :=
  isBlank_of_isOrdinary_eq_false (isOrdinary_of_isQuote isQuote)

theorem not_isLiteral_of_head? (code : ∀ c ∈ text.head?, isQuote c = false) :
    ¬ IsLiteral text := by
  rintro ⟨quote, inside, literal, rfl⟩
  have opens := literal.isQuote
  rw [code quote rfl] at opens
  cases opens

theorem withoutComments_of_isInside (literal : IsInside quote inside) :
    withoutComments (quote :: inside ++ [quote]) = quote :: inside ++ [quote] := by
  rw [withoutComments_literal literal, withoutComments_nil]

theorem IsValue.isExpression {value : Value} (isValue : value.IsValue) :
    IsExpression value.written := by
  cases value with
  | scalar quote text =>
      refine ⟨isBody_of_isInside isValue.1, ?_⟩
      rw [Value.written, withoutComments_of_isInside isValue.1]
      simp [isAllBlank, isBlank_of_isQuote isValue.1.isQuote]
  | expression text => exact isValue.1

theorem scalar?_eq_some (isScalar : scalar? text = some inside) :
    ∃ quote, text = quote :: inside ++ [quote] ∧ isQuote quote ∧
      ∀ c ∈ inside, isQuote c = false := by
  cases text with
  | nil => cases isScalar
  | cons quote rest =>
      simp only [scalar?, Option.ite_none_right_eq_some, Bool.and_eq_true, decide_eq_true_eq,
        Option.some.injEq] at isScalar
      obtain ⟨⟨⟨isQuote, last⟩, noQuotes⟩, rfl⟩ := isScalar
      obtain ⟨before, rfl⟩ := List.getLast?_eq_some_iff.mp last
      exact ⟨quote, by simp, isQuote, by simpa using noQuotes⟩

theorem isBody_of_blank_append {before : List Char} (blank : isAllBlank before)
    (body : IsBody avoid (before ++ text)) : IsBody avoid text := by
  induction before with
  | nil => exact body
  | cons c before ih =>
      simp only [isAllBlank, List.all_cons, Bool.and_eq_true] at blank
      exact ih blank.2 (body.tail (isOrdinary_of_isBlank blank.1))

/-- A trimmed text that is shown with a character at both ends has it there itself. -/
theorem append_of_collapse (trimmed : IsTrimmed text)
    (shown : collapse text = quote :: inside ++ [quote]) :
    ∃ middle, text = quote :: middle ++ [quote] := by
  have head : text.head? = some quote := by
    rw [← dropWhile_eq_self trimmed.1]
    exact (head?_collapse text).symm.trans (by rw [shown]; rfl)
  have last : text.getLast? = some quote := by
    rw [← dropRightWhile_eq_self trimmed.2]
    exact (getLast?_collapse text).symm.trans (by rw [shown]; exact List.getLast?_concat)
  obtain ⟨lead, rfl⟩ := List.getLast?_eq_some_iff.mp last
  cases lead with
  | nil =>
      -- One character alone is not shown as two.
      have word : isBlank quote = false := trimmed.1 quote rfl
      simp [collapse_cons word, isAllBlank] at shown
  | cons c lead =>
      obtain rfl : c = quote := by simpa using head
      exact ⟨lead, rfl⟩

/-- A text shown between quotes without quotes inside is one literal. -/
theorem isLiteral_of_scalar? (body : IsBody avoid text)
    (isScalar : scalar? (collapse text) = some inside) : IsLiteral (trim text) := by
  obtain ⟨quote, shown, opens, noQuotes⟩ := scalar?_eq_some isScalar
  have word := isBlank_of_isQuote opens
  obtain ⟨middle, core⟩ := append_of_collapse (isTrimmed_trim text) (by rw [collapse_trim, shown])
  obtain ⟨before, after, isBefore, isAfter, divided⟩ := exists_trim text
  have notInside : inside.count quote = 0 := List.count_eq_zero.mpr fun member => by
    rw [noQuotes quote member] at opens
    cases opens
  have notMiddle : quote ∉ middle := by
    have same := count_collapse word (trim text)
    rw [collapse_trim, shown, core] at same
    simpa [List.count_cons, notInside, List.count_eq_zero] using same.symm
  have notAfter : quote ∉ after := fun member => by
    rw [List.all_eq_true.mp isAfter quote member] at word
    cases word
  have closed : IsBody avoid (quote :: (middle ++ quote :: after)) := by
    refine isBody_of_blank_append isBefore ?_
    rw [divided, core] at body
    simpa using body
  obtain ⟨literal, more, same, isInside⟩ := closed.literal opens
  -- The literal ends at the first further quote, which is the last one.
  rw [List.append_cons_inj_of_notMem notMiddle notAfter] at same
  exact ⟨quote, literal, isInside, by rw [core, same.1]⟩

theorem shownValue_trim (last : ∀ c ∈ (trimRight text).getLast?, c ≠ ',' ∧ c ≠ ';') :
    shownValue (trim text) = (scalar? (collapse text)).getD (collapse text) := by
  have kept : dropRightWhile (fun c => c = ',' || c = ';') (collapse text) = collapse text := by
    refine dropRightWhile_eq_self fun c member => ?_
    rw [getLast?_collapse] at member
    simp [last c member]
  rw [shownValue, collapse_trim, kept, trim_eq_self (isTrimmed_collapse text)]

theorem shownValue_of_isValue {value : Value} (isValue : value.IsValue) :
    shownValue (trim (withoutComments value.written)) = value.shown := by
  cases value with
  | expression text =>
      obtain ⟨expression, notLiteral, last⟩ := isValue
      have body := expression.isBody.withoutComments (by decide)
      have notScalar : scalar? (collapse (withoutComments text)) = none := by
        by_contra isScalar
        obtain ⟨inside, isScalar⟩ := Option.ne_none_iff_exists'.mp isScalar
        exact notLiteral (isLiteral_of_scalar? body isScalar)
      rw [Value.written, shownValue_trim last, notScalar]
      rfl
  | scalar quote text =>
      obtain ⟨literal, noQuotes, spaced⟩ := isValue
      have word := isBlank_of_isQuote literal.isQuote
      have isLast : (quote :: text ++ [quote]).getLast? = some quote := List.getLast?_concat
      have trimmed : IsTrimmed (quote :: text ++ [quote]) := by
        refine ⟨by simp [word], ?_⟩
        simp only [isLast, Option.mem_some_iff, forall_eq', word]
      have spaced : IsSpaced (quote :: text ++ [quote]) := by
        cases text with
        | nil => simp [IsSpaced, word]
        | cons c text => exact List.isChain_cons_cons.mpr ⟨by simp [word], spaced⟩
      have last : ∀ c ∈ (trimRight (quote :: text ++ [quote])).getLast?, c ≠ ',' ∧ c ≠ ';' := by
        rw [trimRight, dropRightWhile_eq_self trimmed.2, isLast]
        rintro c ⟨⟩
        constructor <;> (rintro rfl; cases literal.isQuote)
      rw [Value.written, withoutComments_of_isInside literal, shownValue_trim last,
        collapse_eq_self trimmed spaced]
      have isScalar : scalar? (quote :: text ++ [quote]) = some text := by
        simpa [scalar?, literal.isQuote] using noQuotes
      rw [isScalar]
      rfl

end

/-!
A rule is found as the value of its entry, and its declarations as the entries of its
inside.
-/

section

variable {rule : Rule}

theorem Rule.IsRule.isBody (isRule : rule.IsRule) : IsBody [] (rule.text Value.written) :=
  Object.IsWritten.isBody isRule fun _ => IsValue.isExpression

theorem Rule.IsRule.withoutComments_written (isRule : rule.IsRule) :
    withoutComments rule.written =
      '{' :: withoutComments (rule.text Value.written) ++ ['}'] := by
  have group := @withoutComments_group [] '{' '}' _ (by decide) isRule.isBody
  rwa [withoutComments_nil] at group

theorem Rule.IsRule.isExpression (isRule : rule.IsRule) : IsExpression rule.written := by
  refine ⟨.group '{' '}' (by decide) isRule.isBody (.nil _), ?_⟩
  rw [isRule.withoutComments_written, isAllBlank, List.cons_append, List.all_cons]
  exact Bool.not_eq_true _ ▸ rfl

theorem Rule.IsRule.objectBody? (isRule : rule.IsRule) :
    objectBody? (trim (withoutComments rule.written)) =
      some (withoutComments (rule.text Value.written)) := by
  have trimmed : IsTrimmed (withoutComments rule.written) := by
    rw [isRule.withoutComments_written]
    refine ⟨?_, ?_⟩
    · rintro c ⟨⟩
      rfl
    · rw [List.getLast?_concat]
      rintro c ⟨⟩
      rfl
  have inside := isRule.isBody.withoutComments List.not_mem_nil
  rw [trim_eq_self trimmed, Styles.objectBody?, trim_eq_self trimmed,
    isRule.withoutComments_written]
  exact congrArg some (groupBody_of_isBody inside rfl)

end

/-- The record of a declaration. -/
def declared (block : Key) (declaration : Entry Value) : StyleDecl :=
  { property := String.ofList declaration.key.text
    value := String.ofList declaration.value.shown
    context := "style"
    name := some (String.ofList block.text) }

theorem sheetBodyStyles_of_isWritten {sheet : Object Rule}
    (written : sheet.IsWritten Rule.written Rule.IsRule) :
    sheetBodyStyles (withoutComments (sheet.text Rule.written)) =
      sheet.entries.flatMap fun rule => rule.value.entries.map (declared rule.key) := by
  have isRule : ∀ rule ∈ sheet.entries, rule.value.IsRule := fun rule member =>
    (written.entries rule member).2
  have blocks : namedBlocks (withoutComments (sheet.text Rule.written)) =
      sheet.entries.map fun rule =>
        (rule.key.text, withoutComments (rule.value.text Value.written)) := by
    rw [namedBlocks, written.entries_text fun _ => Rule.IsRule.isExpression, List.filterMap_map,
      ← List.filterMap_eq_map]
    refine List.filterMap_congr fun rule member => ?_
    simp [(isRule rule member).objectBody?]
  rw [sheetBodyStyles, blocks, List.flatMap_map]
  refine List.flatMap_congr fun rule member => ?_
  have declarations := (isRule rule member).entries_text fun _ => IsValue.isExpression
  simp only [declarations, List.map_map]
  refine List.map_congr_left fun declaration isDeclaration => ?_
  have isValue := ((isRule rule member).entries declaration isDeclaration).2
  simp [sheetStyle, declared, shownValue_of_isValue isValue]

section

variable {before : Option Char} {gap inner : List Char}

theorem callText_append (gap inner rest : List Char) :
    callText gap inner ++ rest =
      "StyleSheet.create".toList ++ (gap ++ '(' :: (inner ++ '{' :: rest)) := by
  have regrouped (name : List Char) : name ++ gap ++ '(' :: inner ++ ['{'] ++ rest =
      name ++ (gap ++ '(' :: (inner ++ '{' :: rest)) := by simp
  exact regrouped _

theorem sheetHeader_callText (starts : startsWord before) (isGap : isAllBlank gap)
    (isInner : isAllBlank inner) (rest : List Char) :
    sheetHeader before (callText gap inner ++ rest) = some (callText gap inner).length := by
  have afterName : after? "StyleSheet.create".toList (callText gap inner ++ rest) =
      some (gap ++ '(' :: (inner ++ '{' :: rest)) := by
    rw [callText_append, after?_append]
  have atParenthesis : trimLeft (gap ++ '(' :: (inner ++ '{' :: rest)) =
      '(' :: (inner ++ '{' :: rest) := by
    rw [trimLeft, dropWhile_append_of_all isGap]
    rfl
  have atBrace : trimLeft (inner ++ '{' :: rest) = '{' :: rest := by
    rw [trimLeft, dropWhile_append_of_all isInner]
    rfl
  rw [sheetHeader, if_pos starts]
  simp only [afterName, atParenthesis, atBrace, List.length_append, Nat.add_sub_cancel]

end

/-- From a script with one style sheet every declaration is read, in the order in which
they stand, with its block, its property and its value, whatever else the script holds. -/
theorem sheetStyles_of_isWritten {sheet : Object Rule}
    (written : sheet.IsWritten Rule.written Rule.IsRule) {before gap inner after : List Char}
    (starts : startsWord before.getLast?) (isGap : isAllBlank gap) (isInner : isAllBlank inner)
    (only : ∀ other rest,
      before ++ (callText gap inner ++ (sheet.text Rule.written ++ '}' :: after)) = other ++ rest →
      other ≠ before → sheetHeader other.getLast? rest = none) :
    sheetStyles (before ++ (callText gap inner ++ (sheet.text Rule.written ++ '}' :: after))) =
      sheet.entries.flatMap fun rule => rule.value.entries.map (declared rule.key) := by
  have body : IsBody [] (sheet.text Rule.written) :=
    written.isBody fun _ => Rule.IsRule.isExpression
  have block := blocks_eq_singleton (sheetHeader_callText starts isGap isInner _)
    List.getLast?_concat (groupBody_of_isBody body rfl) only
  rw [sheetStyles, block, List.flatMap_singleton, sheetBodyStyles_of_isWritten written]

/-- Outside these conditions declarations are lost or shown in another way: with an empty
key, with a key that starts with a letter above ASCII, with a comment behind a slash, with
a line break in a comment, and with a comment beside a literal or behind a semicolon. -/
theorem sheetStyles_unusual :
    sheetStyles "StyleSheet.create(\x7b a: \x7b '': 1 \x7d \x7d)".toList = [] ∧
      sheetStyles "StyleSheet.create(\x7b é: \x7b b: 1 \x7d \x7d)".toList = [] ∧
      (sheetStyles "StyleSheet.create(\x7b a: \x7b b: /x//* c */ \x7d \x7d)".toList).map
          (·.value) = ["/x"] ∧
      (sheetStyles "StyleSheet.create(\x7b a: \x7b b: 1/*\n*/+2 \x7d \x7d)".toList).map
          (·.value) = ["1 +2"] ∧
      (sheetStyles "StyleSheet.create(\x7b a: \x7b b: /* c */ 'x' \x7d \x7d)".toList).map
          (·.value) = ["x"] ∧
      (sheetStyles "StyleSheet.create(\x7b a: \x7b b: 1;/* c */ \x7d \x7d)".toList).map
          (·.value) = ["1"] := by
  decide +kernel

/-- A sheet with one block, whose declarations have a literal and a call for a value. -/
def sampleSheet : Object Rule :=
  { entries :=
      [{ before := " ".toList
         key := .word "box".toList
         afterKey := []
         afterColon := " ".toList
         value :=
           { entries :=
               [{ before := " /* x */ ".toList
                  key := .quoted '\'' "font-family".toList
                  afterKey := []
                  afterColon := " ".toList
                  value := .scalar '"' "Open Sans".toList
                  afterValue := [] },
                { before := " ".toList
                  key := .word "width".toList
                  afterKey := []
                  afterColon := " ".toList
                  value := .expression "max(1, 2)".toList
                  afterValue := [] }]
             ending := some " ".toList }
         afterValue := " ".toList }] }

theorem sampleSheet_isWritten : sampleSheet.IsWritten Rule.written Rule.IsRule := by
  have space : IsGap " ".toList := .blank ' ' rfl .nil
  have comment : IsGap " /* x */ ".toList :=
    .blank ' ' rfl (.blockComment [' ', 'x', ' '] (by decide) (.blank ' ' rfl .nil))
  have quoted : IsQuoted '"' "Open Sans".toList :=
    Key.isQuoted_of_plain rfl (forall_mem_of_all (by decide))
  have call : IsBody [','] "max(1, 2)".toList := by
    have divided : "max(1, 2)".toList =
        ['m', 'a', 'x'] ++ ('(' :: ['1', ',', ' ', '2'] ++ ')' :: []) := by decide
    rw [divided]
    exact .append (.of_ordinary (forall_mem_of_all (by decide)))
      (.group '(' ')' (by decide) (.of_ordinary (forall_mem_of_all (by decide))) (.nil _))
      fun _ => by decide
  have head : (trim (withoutComments "max(1, 2)".toList)).head? = some 'm' := by decide +kernel
  have last : (trimRight (withoutComments "max(1, 2)".toList)).getLast? = some ')' := by
    decide +kernel
  have isValue : (Value.expression "max(1, 2)".toList).IsValue := by
    refine ⟨⟨call, by decide +kernel⟩, not_isLiteral_of_head? ?_, ?_⟩
    · rw [head]
      rintro c ⟨⟩
      rfl
    · rw [last]
      rintro c ⟨⟩
      decide
  refine ⟨List.forall_mem_singleton.mpr ⟨?_, ?_, ?_⟩, by rintro gap ⟨⟩⟩
  · exact ⟨by decide, space, .nil, space, space, fun _ => by decide⟩
  · refine List.forall_mem_cons.mpr ⟨⟨?_, ?_⟩, List.forall_mem_singleton.mpr ⟨?_, isValue⟩⟩
    · exact ⟨by decide, comment, .nil, space, .nil, fun _ => by decide⟩
    · exact ⟨.inl ⟨rfl, quoted⟩, forall_mem_of_all (by decide), by decide +kernel⟩
    · exact ⟨by decide, space, .nil, space, .nil, fun _ => by decide⟩
  · rintro gap ⟨⟩
    exact space

theorem sheetStyles_sampleSheet :
    sampleSheet.IsWritten Rule.written Rule.IsRule ∧
      sheetStyles ("s = ".toList ++ (callText [] [] ++ (sampleSheet.text Rule.written ++
        '}' :: ");".toList))) =
        [{ property := "font-family", value := "Open Sans", name := some "box" },
          { property := "width", value := "max(1, 2)", name := some "box" }] := by
  refine ⟨sampleSheet_isWritten, ?_⟩
  rw [sheetStyles_of_isWritten sampleSheet_isWritten (by decide) rfl rfl
    (forall_append_iff.mpr (by decide +kernel))]
  decide +kernel

end ComponentAtlas.Styles
