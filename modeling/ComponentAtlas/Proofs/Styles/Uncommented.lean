/-
Module: ComponentAtlas.Proofs.Styles.Uncommented
Purpose: The styles of a script and those of the script without its comments.
Main exports:
  isPlain_sheetHeader, sheetStyles_withoutComments, isPlain_classHeader,
  classStyles_withoutComments
-/
import ComponentAtlas.Proofs.Source.Undisturbed
import ComponentAtlas.Proofs.Styles.Sheet
import ComponentAtlas.Styles.ClassAttribute

namespace ComponentAtlas.Styles

open ComponentAtlas.Text
open ComponentAtlas.Source

/-!
Style sheets.
-/

section

variable {before : Option Char} {text : List Char} {size : Nat}

theorem length_callText (gap inner : List Char) :
    (callText gap inner).length =
      "StyleSheet.create".toList.length + (gap.length + (inner.length + 2)) := by
  have counted (name : List Char) : (name ++ gap ++ '(' :: inner ++ ['{']).length =
      name.length + (gap.length + (inner.length + 2)) := by
    simp
  exact counted _

/-- Where the header of a sheet is found, the call stands. -/
theorem exists_callText (found : sheetHeader before text = some size) :
    ∃ gap inner rest, startsWord before ∧ isAllBlank gap ∧ isAllBlank inner ∧
      text = callText gap inner ++ rest ∧ size = (callText gap inner).length := by
  unfold sheetHeader at found
  split at found
  case isFalse => cases found
  case isTrue starts =>
    split at found
    case h_1 => cases found
    case h_2 behind isAfter =>
      rw [after?_eq_some] at isAfter
      obtain ⟨gap, isGap, isBehind⟩ := exists_trimLeft behind
      split at found
      case h_2 => cases found
      case h_1 call atParenthesis =>
        obtain ⟨inner, isInner, isCall⟩ := exists_trimLeft call
        split at found
        case h_2 => cases found
        case h_1 body atBrace =>
          rw [atParenthesis] at isBehind
          rw [atBrace] at isCall
          have divided : text = callText gap inner ++ body := by
            rw [callText_append, isAfter, isBehind, isCall]
          refine ⟨gap, inner, body, starts, isGap, isInner, divided, ?_⟩
          rw [← Option.some.inj found, divided, List.length_append, Nat.add_sub_cancel]

theorem isPlain_sheetHeader : sheetHeader.IsPlain where
  positive {before text size} found := by
    obtain ⟨gap, inner, rest, -, -, -, -, isSize⟩ := exists_callText found
    rw [isSize, length_callText]
    omega
  congr {before taken rest other} found _ := by
    obtain ⟨gap, inner, behind, starts, isGap, isInner, divided, isSize⟩ := exists_callText found
    obtain ⟨rfl, rfl⟩ := List.append_inj divided isSize
    exact sheetHeader_callText starts isGap isInner other
  notSlash {before rest} := by
    have noCall : after? "StyleSheet.create".toList ('/' :: rest) = none := by
      rw [after?]
      rfl
    simp only [sheetHeader, noCall]
    exact ite_self none
  behindSlash := rfl

end

section

variable {source : List Char}

theorem sheetStyles_eq (source : List Char) :
    sheetStyles source = ((blocks sheetHeader source).map Block.body).flatMap fun body =>
      sheetBodyStyles (withoutComments body) := by
  rw [sheetStyles, List.flatMap_map]

/-- As long as no call that creates a sheet touches a comment, comments make no difference to
the declarations of sheets. -/
theorem sheetStyles_withoutComments (undisturbed : Undisturbed sheetHeader source) :
    sheetStyles (withoutComments source) = sheetStyles source := by
  rw [sheetStyles_eq, sheetStyles_eq, bodies_withoutComments isPlain_sheetHeader undisturbed,
    List.flatMap_map]
  simp only [withoutComments_withoutComments]

/-- The marks of a line comment hide no sheet. -/
theorem sheetStyles_behindSlashes (text : List Char) :
    sheetStyles ('/' :: '/' :: text) = sheetStyles text := by
  rw [sheetStyles_eq, sheetStyles_eq, bodies_behindSlashes isPlain_sheetHeader]

end

/-!
Class attributes: what stands in front of a value is a header of its own.
-/

/-- The characters of a class attribute in front of its value. -/
def classHeader : Header := fun before text => (classAttribute before text).map (·.2)

/-- A name and an equals sign, with blanks behind them. -/
def attributeText (name gap inner : List Char) : List Char := name ++ gap ++ '=' :: inner

section

variable {before : Option Char} {name gap inner text value : List Char} {size : Nat}

theorem attributeText_append (name gap inner value : List Char) :
    attributeText name gap inner ++ value = name ++ (gap ++ '=' :: (inner ++ value)) := by
  simp [attributeText]

theorem exists_attributeText (found : classAttribute before text = some (value, size)) :
    before.any joinsAttribute = false ∧ ∃ name ∈ ["className", "class"], ∃ gap inner,
      isAllBlank gap ∧ isAllBlank inner ∧ (∀ c ∈ value.head?, isBlank c = false) ∧
      text = attributeText name.toList gap inner ++ value ∧
      size = (attributeText name.toList gap inner).length := by
  unfold classAttribute at found
  split at found
  case isTrue => cases found
  case isFalse apart =>
    refine ⟨by simpa using apart, ?_⟩
    obtain ⟨isValue, isFound, isPair⟩ := Option.map_eq_some_iff.mp found
    obtain ⟨rfl, rfl⟩ := Prod.mk.inj isPair
    obtain ⟨name, listed, isNamed⟩ := List.exists_of_findSome?_eq_some isFound
    refine ⟨name, listed, ?_⟩
    obtain ⟨behind, isAfter, isBehind⟩ := Option.bind_eq_some_iff.mp isNamed
    rw [after?_eq_some] at isAfter
    obtain ⟨gap, isGap, isRest⟩ := exists_trimLeft behind
    split at isBehind
    case h_2 => cases isBehind
    case h_1 raw atSign =>
      obtain ⟨inner, isInner, isRaw⟩ := exists_trimLeft raw
      cases isBehind
      rw [atSign] at isRest
      have divided : text = attributeText name.toList gap inner ++ trimLeft raw := by
        rw [isAfter, isRest]
        nth_rewrite 1 [isRaw]
        rw [attributeText_append]
      refine ⟨gap, inner, isGap, isInner, fun c isHead => isBlank_of_head?_trimLeft isHead,
        divided, ?_⟩
      rw [divided, List.length_append, Nat.add_sub_cancel]

/-- The shorter name is not the start of the longer one. -/
theorem after?_className_eq_none (isGap : isAllBlank gap) (rest : List Char) :
    after? "className".toList ("class".toList ++ (gap ++ '=' :: rest)) = none := by
  have longer : "className".toList = "class".toList ++ 'N' :: "ame".toList := by decide
  cases isAfter : after? "className".toList ("class".toList ++ (gap ++ '=' :: rest)) with
  | none => rfl
  | some behind =>
      rw [after?_eq_some, longer, List.append_assoc] at isAfter
      have same := List.append_cancel_left isAfter
      cases gap with
      | nil => cases same
      | cons c gap =>
          obtain ⟨rfl, -⟩ := List.cons.inj same
          cases isGap

theorem classAttribute_attributeText (apart : before.any joinsAttribute = false)
    {name : String} (listed : name ∈ ["className", "class"]) (isGap : isAllBlank gap)
    (isInner : isAllBlank inner) (isValue : ∀ c ∈ value.head?, isBlank c = false) :
    classAttribute before (attributeText name.toList gap inner ++ value) =
      some (value, (attributeText name.toList gap inner).length) := by
  have left : trimLeft (inner ++ value) = value := by
    rw [trimLeft, dropWhile_append_of_all isInner, dropWhile_eq_self isValue]
  have atSign : trimLeft (gap ++ '=' :: (inner ++ value)) = '=' :: (inner ++ value) := by
    rw [trimLeft, dropWhile_append_of_all isGap]
    rfl
  have isAfter : after? name.toList (attributeText name.toList gap inner ++ value) =
      some (gap ++ '=' :: (inner ++ value)) := by rw [attributeText_append, after?_append]
  rw [classAttribute, if_neg (by simp [apart])]
  simp only [List.mem_cons, List.not_mem_nil, or_false] at listed
  rcases listed with rfl | rfl
  · simp only [List.findSome?_cons, isAfter, Option.bind_eq_bind, Option.bind_some, atSign, left,
      Option.map_some, List.length_append, Nat.add_sub_cancel]
  · have noLonger := after?_className_eq_none isGap (inner ++ value)
    rw [← attributeText_append] at noLonger
    simp only [List.findSome?_cons, noLonger, isAfter, Option.bind_eq_bind, Option.bind_some,
      Option.bind_none, atSign, left, Option.map_some, List.length_append, Nat.add_sub_cancel]

theorem getLast?_attributeText (name gap : List Char) (isInner : isAllBlank inner) :
    (attributeText name gap inner).getLast? ≠ some '{' := by
  rw [attributeText, List.getLast?_append_of_ne_nil _ (List.cons_ne_nil _ _)]
  intro isLast
  rcases List.mem_cons.mp (List.mem_of_getLast? isLast) with isSign | member
  · cases isSign
  · exact absurd (List.all_eq_true.mp isInner '{' member) (by decide)

theorem classHeader_eq_some : classHeader before text = some size ↔
    ∃ value, classAttribute before text = some (value, size) := by
  simp [classHeader, Option.map_eq_some_iff]

theorem isPlain_classHeader : classHeader.IsPlain where
  positive {before text size} found := by
    obtain ⟨value, found⟩ := classHeader_eq_some.mp found
    obtain ⟨-, name, -, gap, inner, -, -, -, -, isSize⟩ := exists_attributeText found
    rw [isSize, attributeText, List.length_append, List.length_cons]
    omega
  congr {before taken rest other} found same := by
    obtain ⟨value, found⟩ := classHeader_eq_some.mp found
    obtain ⟨apart, name, listed, gap, inner, isGap, isInner, isValue, divided, isSize⟩ :=
      exists_attributeText found
    obtain ⟨rfl, rfl⟩ := List.append_inj divided isSize
    rw [← same.resolve_left (getLast?_attributeText name.toList gap isInner)] at isValue
    exact classHeader_eq_some.mpr
      ⟨other, classAttribute_attributeText apart listed isGap isInner isValue⟩
  notSlash {before rest} := by
    have noName : ∀ name ∈ ["className", "class"], after? name.toList ('/' :: rest) = none := by
      intro name listed
      simp only [List.mem_cons, List.not_mem_nil, or_false] at listed
      rcases listed with rfl | rfl <;>
        · rw [after?]
          rfl
    cases found : classHeader before ('/' :: rest) with
    | none => rfl
    | some size =>
        obtain ⟨value, found⟩ := classHeader_eq_some.mp found
        obtain ⟨-, name, listed, gap, inner, -, -, -, divided, -⟩ := exists_attributeText found
        have isAfter := after?_append name.toList (gap ++ '=' :: (inner ++ value))
        rw [← attributeText_append, ← divided, noName name listed] at isAfter
        cases isAfter
  behindSlash := rfl

/-- The value of an attribute is what stands behind its header. -/
theorem drop_of_classAttribute (found : classAttribute before text = some (value, size)) :
    text.drop size = value := by
  obtain ⟨-, name, -, gap, inner, -, -, -, rfl, rfl⟩ := exists_attributeText found
  exact List.drop_left

theorem hitsFrom_classAttribute (before : Option Char) (offset skip : Nat) (text : List Char) :
    (hitsFrom classAttribute before offset skip text).map (·.2) =
      (hitsFrom classHeader.hit before offset skip text).map (·.2.2) := by
  induction text generalizing before offset skip with
  | nil => rfl
  | cons c text ih =>
      cases skip with
      | succ more => exact ih ..
      | zero =>
          cases found : classAttribute before (c :: text) with
          | none =>
              have notFound : classHeader.hit before (c :: text) = none := by
                rw [Header.hit, classHeader, found]
                rfl
              simp only [hitsFrom, found, notFound]
              exact ih ..
          | some pair =>
              obtain ⟨value, size⟩ := pair
              have isFound : classHeader.hit before (c :: text) =
                  some (((c :: text).take size, value), size) := by
                rw [Header.hit, classHeader, found, ← drop_of_classAttribute found]
                rfl
              simp only [hitsFrom, found, isFound]
              exact congrArg (value :: ·) (ih ..)

theorem map_hits_classAttribute (source : List Char) :
    (hits classAttribute source).map (·.2) = (hits classHeader.hit source).map (·.2.2) :=
  hitsFrom_classAttribute none 0 0 source

/-- The header of a class attribute ends with its equals sign or with blanks. -/
theorem getLast?_of_hit {source : List Char} {found : Nat × List Char × List Char}
    (hit : found ∈ hits classHeader.hit source) : found.2.1.getLast? ≠ some '{' := by
  obtain ⟨lead, rest, size, -, -, recognised⟩ := mem_hits hit
  obtain ⟨count, isFound, isHit⟩ := Option.map_eq_some_iff.mp recognised
  obtain ⟨isPair, rfl⟩ := Prod.mk.inj isHit
  obtain ⟨value, isValue⟩ := classHeader_eq_some.mp isFound
  obtain ⟨-, name, -, gap, inner, -, isInner, -, rfl, rfl⟩ := exists_attributeText isValue
  rw [← isPair, List.take_left]
  exact getLast?_attributeText name.toList gap isInner

theorem classValues_eq (source : List Char) :
    classValues source =
      ((hits classHeader.hit source).map (·.2)).filterMap fun hit => valueText? hit.2 := by
  have asHits : classValues source = ((hits classAttribute source).map (·.2)).filterMap valueText? := by
    rw [List.filterMap_map]
    rfl
  rw [asHits, map_hits_classAttribute, List.filterMap_map, List.filterMap_map]
  rfl

end

/-!
The literals in the value of an attribute.
-/

/-- The literal that a lexeme is. -/
def asLiteral? : Lexeme → Option (List Char)
  | .literal text => some text
  | _ => none

/-- A comment within the braces of an attribute value holds a quote, which would be taken for
the start of a literal. -/
def hidesQuote (value : List Char) : Bool :=
  match value with
  | '{' :: rest => (lexemes (groupBody rest)).any fun part => part.isComment && part.text.any isQuote
  | _ => false

section

variable {parts more : List Lexeme} {text rest value : List Char} {c : Char}

theorem literals_cons (notQuote : isQuote c = false) (rest : List Char) :
    literals (c :: rest) = literals rest := by
  rw [literals, if_neg (by simp [notQuote])]

theorem literals_append (noQuotes : ∀ c ∈ text, isQuote c = false) (rest : List Char) :
    literals (text ++ rest) = literals rest := by
  induction text with
  | nil => rfl
  | cons c text ih =>
      rw [List.forall_mem_cons] at noQuotes
      rw [List.cons_append, literals_cons noQuotes.1, ih noQuotes.2]

/-- Where no comment holds a quote, the literals that are found are the literals. -/
theorem literals_textOf (areLexemes : AreLexemes parts)
    (noQuotes : ∀ part ∈ parts, part.isComment → ∀ c ∈ part.text, isQuote c = false) :
    literals (textOf parts) = parts.filterMap asLiteral? := by
  induction areLexemes with
  | nil => rw [textOf_nil, literals]; rfl
  | code c notQuote _ _ ih =>
      rw [List.forall_mem_cons] at noQuotes
      exact (literals_cons notQuote _).trans (ih noQuotes.2)
  | @comment more inside _ _ ih =>
      rw [List.forall_mem_cons] at noQuotes
      rw [textOf_cons, literals_append (noQuotes.1 rfl), ih noQuotes.2]
      rfl
  | @literal more quote inside isQuote ends _ ih =>
      rw [List.forall_mem_cons] at noQuotes
      have found : literals (quote :: (inside ++ textOf more)) =
          (quote :: inside) :: literals (textOf more) := by
        rw [literals, if_pos isQuote, ends]
        simp
      exact found.trans (congrArg _ (ih noQuotes.2))

theorem filterMap_remains (parts : List Lexeme) :
    (parts.flatMap Lexeme.remains).filterMap asLiteral? = parts.filterMap asLiteral? := by
  induction parts with
  | nil => rfl
  | cons part parts ih =>
      rw [List.flatMap_cons, List.filterMap_append, ih]
      cases part with
      | code c => rfl
      | literal text => rfl
      | comment text => simp [Lexeme.remains, List.filterMap_cons, asLiteral?]

theorem literals_withoutComments
    (noQuotes : ∀ part ∈ lexemes text, part.isComment → ∀ c ∈ part.text, isQuote c = false) :
    literals (withoutComments text) = literals text := by
  have noComments : ∀ part ∈ (lexemes text).flatMap Lexeme.remains, part.isComment = false := by
    intro part member
    obtain ⟨whole, -, isLeft⟩ := List.mem_flatMap.mp member
    cases whole with
    | code c => rw [List.mem_singleton.mp isLeft]; rfl
    | literal text => rw [List.mem_singleton.mp isLeft]; rfl
    | comment text =>
        obtain ⟨c, -, rfl⟩ := List.mem_map.mp isLeft
        rfl
  have right := literals_textOf (areLexemes_lexemes text) noQuotes
  have left := literals_textOf (areLexemes_lexemes text).remains fun part member isComment => by
    rw [noComments part member] at isComment
    cases isComment
  rw [textOf_lexemes] at right
  rw [right, withoutComments, ← textOf_flatMap_remains, left, filterMap_remains]

theorem valueText?_brace (rest : List Char) :
    valueText? ('{' :: rest) = match literals (groupBody rest) with
      | [] => none
      | found => some (joinWith [' '] (found.map literalText)) := rfl

theorem valueText?_literal (areLexemes : AreLexemes (.literal text :: more)) :
    valueText? (textOf (.literal text :: more)) = some (literalText text) := by
  cases areLexemes with
  | literal quote inside isQuote ends _ =>
      have isText : textOf (.literal (quote :: inside) :: more) = quote :: (inside ++ textOf more) :=
        rfl
      rw [isText, valueText?, if_pos isQuote, ends, List.take_left]

theorem valueText?_withoutComments (notBefore : (lexemes value).head?.all (!·.isComment))
    (noQuotes : ¬ hidesQuote value) : valueText? (withoutComments value) = valueText? value := by
  have areLexemes := areLexemes_lexemes value
  have isValue := textOf_lexemes value
  cases isLexemes : lexemes value with
  | nil =>
      rw [isLexemes] at isValue
      rw [← isValue, textOf_nil, withoutComments_nil]
  | cons part more =>
      rw [isLexemes] at areLexemes isValue notBefore
      have isLeft : withoutComments value = textOf ((part :: more).flatMap Lexeme.remains) := by
        rw [textOf_flatMap_remains, withoutComments, isLexemes]
      cases part with
      | comment text => cases notBefore
      | literal text =>
          rw [isLeft, ← isValue, valueText?_literal areLexemes]
          exact valueText?_literal areLexemes.remains
      | code c =>
          cases areLexemes with
          | code _ notQuote alone later =>
              have isRest : value = c :: textOf more := isValue.symm
              have isLeft : withoutComments value = c :: withoutComments (textOf more) := by
                rw [isLeft, later.withoutComments_textOf, ← textOf_flatMap_remains]
                rfl
              rw [isLeft, isRest]
              by_cases isBrace : c = '{'
              · subst isBrace
                have quiet : ∀ part ∈ lexemes (groupBody (textOf more)), part.isComment →
                    ∀ c ∈ part.text, isQuote c = false := by
                  rw [isRest] at noQuotes
                  simpa [hidesQuote] using noQuotes
                rw [valueText?_brace, valueText?_brace, groupBody_withoutComments,
                  literals_withoutComments quiet]
              · simp only [valueText?, notQuote, isBrace, Bool.false_eq_true, if_false]

end

/-!
The classes of a script.
-/

/-- No name of a class attribute touches a comment, and no comment within the braces of a value
holds a quote. -/
structure KeepsClasses (source : List Char) : Prop where
  header : Undisturbed classHeader source
  values : ∀ hit ∈ hits classAttribute source, ¬ hidesQuote hit.2

instance (source : List Char) : Decidable (KeepsClasses source) :=
  decidable_of_iff (Undisturbed classHeader source ∧
      ∀ hit ∈ hits classAttribute source, ¬ hidesQuote hit.2)
    ⟨fun both => ⟨both.1, both.2⟩, fun both => ⟨both.1, both.2⟩⟩

section

variable {source : List Char}

theorem classStyles_withoutComments (keeps : KeepsClasses source) :
    classStyles (withoutComments source) = classStyles source := by
  have same : classValues (withoutComments source) = classValues source := by
    rw [classValues_eq, classValues_eq, hits_withoutComments isPlain_classHeader keeps.header,
      List.filterMap_map, List.filterMap_map]
    refine List.filterMap_congr fun hit member => ?_
    obtain ⟨value, isHit, sameValue⟩ : ∃ found ∈ hits classAttribute source,
        found.2 = hit.2.2 := by
      refine List.mem_map.mp ?_
      rw [map_hits_classAttribute]
      exact List.mem_map.mpr ⟨hit, member, rfl⟩
    have notBefore := (keeps.header.behind member).resolve_left (getLast?_of_hit member)
    exact valueText?_withoutComments notBefore (sameValue ▸ keeps.values value isHit)
  rw [classStyles, same, classStyles]

/-- The marks of a line comment hide no classes. -/
theorem classStyles_behindSlashes (text : List Char) :
    classStyles ('/' :: '/' :: text) = classStyles text := by
  rw [classStyles, classStyles, classValues_eq, classValues_eq,
    hits_behindSlashes isPlain_classHeader]

end

end ComponentAtlas.Styles
