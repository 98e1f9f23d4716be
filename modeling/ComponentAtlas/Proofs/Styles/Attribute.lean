/-
Module: ComponentAtlas.Proofs.Styles.Attribute
Purpose: What each class attribute of a script contributes, and what one with a quoted value does.
Main exports:
  HasAttribute, stylesAt, stylesAt_of_hasAttribute, flatMap_stylesAt, valueText?_quoted,
  stylesAt_quoted
-/
import ComponentAtlas.Proofs.Styles.Uncommented
import ComponentAtlas.Proofs.Text.Hits

namespace ComponentAtlas.Styles

open ComponentAtlas.Text
open ComponentAtlas.Source

/-- Behind `lead` the script has a class attribute, and `value` is all that follows its equals
sign and the blanks there. -/
def HasAttribute (source lead value : List Char) : Prop :=
  lead.getLast?.any joinsAttribute = false ∧ ∃ name ∈ ["className", "class"], ∃ gap inner,
    isAllBlank gap ∧ isAllBlank inner ∧
      source = lead ++ (attributeText name.toList gap inner ++ value)

/-- The styles that a value contributes. -/
def valueStyles (value : List Char) : List StyleDecl :=
  ((valueText? value).toList.flatMap words).map classStyle

/-- The styles of a script that come from the class attribute at a place. -/
def stylesAt (source : List Char) (place : Nat) : List StyleDecl :=
  ((hits classAttribute source).filter (·.1 = place)).flatMap fun hit => valueStyles hit.2

/-!
Every class attribute is found, also one in the value of another.
-/

section

variable {before : Option Char} {name gap inner rest value source lead : List Char}

theorem joinsAttribute_of_mem {name : String} (listed : name ∈ ["className", "class"]) :
    ∀ c ∈ name.toList, joinsAttribute c := by
  have all : ∀ c ∈ ["className", "class"].flatMap String.toList, joinsAttribute c :=
    forall_mem_of_all (by decide)
  exact fun c member => all c (List.mem_flatMap.mpr ⟨name, listed, member⟩)

/-- No class attribute begins with a blank or with an equals sign. -/
theorem classAttribute_eq_none {c : Char} (sign : isBlank c ∨ c = '=') :
    classAttribute before (c :: rest) = none := by
  cases found : classAttribute before (c :: rest) with
  | none => rfl
  | some pair =>
      obtain ⟨-, name, listed, gap, inner, -, -, -, divided, -⟩ := exists_attributeText found
      have isHead : (attributeText name.toList gap inner ++ pair.1).head? = some 'c' := by
        simp only [List.mem_cons, List.not_mem_nil, or_false] at listed
        rcases listed with rfl | rfl <;> rfl
      rw [← divided] at isHead
      obtain rfl : c = 'c' := Option.some.inj isHead
      exact absurd sign (by decide)

/-- No class attribute begins within the name of another or between its name and its value. -/
theorem findsApart_classAttribute : FindsApart classAttribute := by
  intro before front rest value taken found ne_nil reaches
  obtain ⟨-, name, listed, gap, inner, isGap, isInner, -, divided, rfl⟩ :=
    exists_attributeText found
  have signs : ∀ c ∈ gap ++ '=' :: inner, isBlank c ∨ c = '=' := by
    intro c member
    rcases List.mem_append.mp member with inGap | behind
    · exact .inl (List.all_eq_true.mp isGap c inGap)
    · rcases List.mem_cons.mp behind with isSign | inInner
      · exact .inr isSign
      · exact .inl (List.all_eq_true.mp isInner c inInner)
  have atSign : ∀ more, gap ++ '=' :: inner ++ value = more ++ rest →
      more.length < (gap ++ '=' :: inner).length →
        classAttribute (lastOf front before) rest = none := by
    intro more isRest shorter
    rcases List.append_eq_append_iff.mp isRest with ⟨other, rfl, -⟩ | ⟨behind, isSigns, rfl⟩
    · rw [List.length_append] at shorter
      omega
    · cases behind with
      | nil =>
          rw [isSigns, List.append_nil] at shorter
          omega
      | cons c behind => exact classAttribute_eq_none (signs c (by simp [isSigns]))
  have regrouped : front ++ rest = name.toList ++ (gap ++ '=' :: inner ++ value) := by
    rw [divided, attributeText_append]
    simp
  have length : (attributeText name.toList gap inner).length =
      name.toList.length + (gap ++ '=' :: inner).length := by
    rw [attributeText, List.append_assoc, List.length_append]
  rcases List.append_eq_append_iff.mp regrouped with ⟨more, isName, isRest⟩ | ⟨more, rfl, isRest⟩
  · -- The name goes on, or it ends here.
    have isLast : front.getLast? = some (front.getLast ne_nil) :=
      List.getLast?_eq_some_getLast ne_nil
    have inName : front.getLast ne_nil ∈ name.toList := by
      rw [isName]
      exact List.mem_append_left _ (List.getLast_mem ne_nil)
    rw [classAttribute, if_pos]
    rw [lastOf, isLast]
    exact joinsAttribute_of_mem listed _ inName
  · refine atSign more isRest ?_
    rw [length, List.length_append] at reaches
    omega

theorem mem_hits_of_hasAttribute (has : HasAttribute source lead value)
    (isValue : ∀ c ∈ value.head?, isBlank c = false) :
    (lead.length, value) ∈ hits classAttribute source := by
  obtain ⟨apart, name, listed, gap, inner, isGap, isInner, rfl⟩ := has
  refine findsApart_classAttribute.mem_hits ?_
    (classAttribute_attributeText apart listed isGap isInner isValue)
  rw [attributeText_append]
  simp only [List.mem_cons, List.not_mem_nil, or_false] at listed
  rcases listed with rfl | rfl <;> exact List.cons_ne_nil _ _

/-- The styles at the place of an attribute are those of its value. -/
theorem stylesAt_of_hasAttribute (has : HasAttribute source lead value)
    (isValue : ∀ c ∈ value.head?, isBlank c = false) :
    stylesAt source lead.length = valueStyles value := by
  have single := filter_eq_singleton (pairwise_hits classAttribute source)
    (mem_hits_of_hasAttribute has isValue)
  rw [stylesAt, single, List.flatMap_singleton]

/-- The styles of a script are those of its places, one after the other. -/
theorem flatMap_stylesAt (source : List Char) :
    (List.range source.length).flatMap (stylesAt source) = classStyles source := by
  have byHits : classStyles source =
      (hits classAttribute source).flatMap fun hit => valueStyles hit.2 := by
    rw [classStyles, classValues, List.filterMap_eq_flatMap_toList, List.flatMap_assoc]
    refine List.flatMap_congr fun hit _ => ?_
    rw [valueStyles, List.map_flatMap]
  have byPlaces := congrArg (List.flatMap fun hit => valueStyles hit.2)
    (flatMap_hits_at classAttribute source)
  rw [List.flatMap_assoc] at byPlaces
  rw [byHits]
  exact byPlaces

end

/-!
A quoted value is read like a literal of a script, which ends with its line.
-/

section

variable {quote : Char} {text after : List Char}

/-- A text is one line, or goes on behind its first line break. -/
theorem firstLine_cases (text : List Char) :
    (text.takeWhile (· ≠ '\n') = text ∧ text.dropWhile (· ≠ '\n') = []) ∨
      ∃ more, text.dropWhile (· ≠ '\n') = '\n' :: more ∧
        text = text.takeWhile (· ≠ '\n') ++ '\n' :: more := by
  have divided := List.takeWhile_append_dropWhile (p := (· ≠ '\n')) (l := text)
  cases behind : text.dropWhile (· ≠ '\n') with
  | nil =>
      rw [behind, List.append_nil] at divided
      exact .inl ⟨divided, rfl⟩
  | cons c more =>
      obtain rfl : c = '\n' := by
        have := List.head?_dropWhile_not (fun c => decide (c ≠ '\n')) text
        rw [behind] at this
        simpa using this
      rw [behind] at divided
      exact .inr ⟨more, rfl, divided.symm⟩

/-- A line break ends the scan of a literal between line quotes. -/
theorem literalLength_lineBreak (line : isLineQuote quote)
    (plain : ∀ c ∈ text, c ≠ quote ∧ c ≠ '\\' ∧ c ≠ '\n') :
    literalLength quote (text ++ '\n' :: after) = text.length := by
  have noBreak : quote ≠ '\n' := by rintro rfl; cases line
  have noTemplate : quote ≠ '`' := by rintro rfl; cases line
  have ends : closing [.literal quote] false (text ++ '\n' :: after) = some text.length := by
    induction text with
    | nil => simp [closing_cons, move, line, noBreak.symm]
    | cons c text ih =>
        rw [List.forall_mem_cons] at plain
        simp [closing_cons, move, plain.1, noTemplate, ih plain.2, Source.pass]
  rw [literalLength, ends]
  rfl

theorem literalText_line (line : isLineQuote quote) (other : quote ∉ text) :
    literalText (quote :: text) = text := by
  have noTemplate : quote ≠ '`' := by rintro rfl; cases line
  have notLast : text.getLast? ≠ some quote := fun isLast => other (List.mem_of_getLast? isLast)
  simp [literalText, notLast, noTemplate]

theorem literalText_closed (line : isLineQuote quote) (text : List Char) :
    literalText (quote :: text ++ [quote]) = text := by
  have noTemplate : quote ≠ '`' := by rintro rfl; cases line
  simp [literalText, noTemplate]

/-- Of a quoted value the first line is read. -/
theorem valueText?_quoted (line : isLineQuote quote) (plain : ∀ c ∈ text, c ≠ quote ∧ c ≠ '\\') :
    valueText? (quote :: text ++ quote :: after) = some (text.takeWhile (· ≠ '\n')) := by
  have isQuote : isQuote quote := isQuote_of_isLineQuote line
  have onLine : ∀ c ∈ text.takeWhile (· ≠ '\n'), c ≠ quote ∧ c ≠ '\\' ∧ c ≠ '\n' := by
    intro c member
    have notBreak := List.mem_takeWhile_imp member
    have := plain c ((List.takeWhile_sublist _).subset member)
    exact ⟨this.1, this.2, by simpa using notBreak⟩
  rw [List.cons_append, valueText?, if_pos isQuote]
  refine congrArg some ?_
  rcases firstLine_cases text with ⟨isLine, -⟩ | ⟨more, -, divided⟩
  · rw [isLine] at onLine ⊢
    have inside : IsInside quote text := .inl ⟨line, .of_plain onLine⟩
    have regrouped : text ++ quote :: after = (text ++ [quote]) ++ after := by simp
    have length : text.length + 1 = (text ++ [quote]).length := by simp
    rw [literalLength_of_isInside inside, regrouped, length, List.take_left]
    exact literalText_closed line text
  · have other : quote ∉ text.takeWhile (· ≠ '\n') := fun member => (onLine quote member).1 rfl
    have regrouped : text ++ quote :: after =
        text.takeWhile (· ≠ '\n') ++ '\n' :: (more ++ quote :: after) := by
      conv_lhs => rw [divided]
      simp
    rw [regrouped, literalLength_lineBreak line onLine, List.take_left]
    exact literalText_line line other

end

/-- The first line of a text has all its words exactly when the other lines are blank. -/
theorem words_takeWhile_eq_iff (text : List Char) :
    words (text.takeWhile (· ≠ '\n')) = words text ↔ isAllBlank (text.dropWhile (· ≠ '\n')) := by
  rcases firstLine_cases text with ⟨isLine, behind⟩ | ⟨more, behind, divided⟩
  · rw [isLine, behind]
    simp [isAllBlank]
  · have all : words text = words (text.takeWhile (· ≠ '\n')) ++ words more := by
      conv_lhs => rw [divided]
      exact words_append_blank rfl _ _
    have blank : isAllBlank ('\n' :: more) = isAllBlank more := rfl
    rw [all, behind, List.self_eq_append_right, words_eq_nil_iff, blank]

theorem classStyle_injective : Function.Injective classStyle := by
  intro one other same
  have sameValue : String.ofList one = String.ofList other := congrArg StyleDecl.value same
  exact String.ofList_injective sameValue

/-- A class attribute with a quoted value contributes the words of the first line of its value,
so all words of the value exactly when its other lines are blank.  All that the class attributes
of a script contribute, in the order of their places, are the styles of the script. -/
theorem stylesAt_quoted {source lead text after : List Char} {quote : Char}
    (has : HasAttribute source lead (quote :: text ++ quote :: after)) (line : isLineQuote quote)
    (plain : ∀ c ∈ text, c ≠ quote ∧ c ≠ '\\') :
    (List.range source.length).flatMap (stylesAt source) = classStyles source ∧
      stylesAt source lead.length = (words (text.takeWhile (· ≠ '\n'))).map classStyle ∧
      (stylesAt source lead.length = (words text).map classStyle ↔
        isAllBlank (text.dropWhile (· ≠ '\n'))) := by
  have noBlank : ∀ c ∈ (quote :: text ++ quote :: after).head?, isBlank c = false := by
    intro c isHead
    cases isHead
    exact isBlank_of_isQuote (isQuote_of_isLineQuote line)
  have firstLine : stylesAt source lead.length =
      (words (text.takeWhile (· ≠ '\n'))).map classStyle := by
    rw [stylesAt_of_hasAttribute has noBlank, valueStyles, valueText?_quoted line plain]
    simp
  refine ⟨flatMap_stylesAt source, firstLine, ?_⟩
  rw [firstLine, classStyle_injective.list_map.eq_iff, words_takeWhile_eq_iff]

/-- Two attributes of a script, the second with a value on two lines. -/
def twoAttributes : List Char :=
  "<p class='a  b'><q data-class='x' className = \"c\n d\"/>".toList

/-- The second line of the second value is lost. -/
theorem stylesAt_twoAttributes :
    HasAttribute twoAttributes "<p class='a  b'><q data-class='x' ".toList
        "\"c\n d\"/>".toList ∧
      stylesAt twoAttributes 34 = ["c".toList].map classStyle ∧
      stylesAt twoAttributes 34 ≠ (words "c\n d".toList).map classStyle := by
  have has : HasAttribute twoAttributes "<p class='a  b'><q data-class='x' ".toList
      ('"' :: "c\n d".toList ++ '"' :: "/>".toList) :=
    ⟨by decide, "className", by decide, [' '], [' '], by decide, by decide, by decide⟩
  obtain ⟨-, firstLine, all⟩ := stylesAt_quoted has (by decide) (forall_mem_of_all (by decide))
  exact ⟨has, firstLine, fun same => absurd (all.mp same) (by decide)⟩

end ComponentAtlas.Styles
