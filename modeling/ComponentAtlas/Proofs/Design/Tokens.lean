/-
Module: ComponentAtlas.Proofs.Design.Tokens
Purpose: The design tokens of components taken together are those of each, added up, and their
  order does not matter.
Main exports:
  usageIn, contextsIn, AddsUp, ColorsAddUp, SameColors, usageIn_tableOf, map_counted_colorTokens,
  designTokens_append
-/
import ComponentAtlas.Design.Measure
import ComponentAtlas.Proofs.Design.Tally

namespace ComponentAtlas.Design

/-!
There are eleven tables: one of colors for each role, one for each aspect of text, and one for each
kind of spacing.
-/

def Palette.tokens (palette : Palette) : ColorRole → List ColorToken
  | .background => palette.background
  | .text => palette.text
  | .border => palette.border
  | .accent => palette.accent

def Typography.table (typography : Typography) : FontAspect → List TokenUsage
  | .size => typography.fontSizes
  | .weight => typography.fontWeights
  | .family => typography.fontFamilies
  | .lineHeight => typography.lineHeights

def SpacingSystem.table (spacing : SpacingSystem) : Spacing → List TokenUsage
  | .margin => spacing.margins
  | .padding => spacing.paddings
  | .gap => spacing.gaps

/-- The number of uses that a table tells for a value; a value that is absent has none. -/
def usageIn (tokens : List TokenUsage) (value : String) : Nat :=
  ((tokens.find? (·.value = value)).map (·.usage)).getD 0

/-- A color as a value with its uses, whatever used it. -/
def ColorToken.counted (token : ColorToken) : TokenUsage :=
  { value := token.value, usage := token.usage }

/-- The properties that used a color. -/
def contextsIn (tokens : List ColorToken) (value : String) : List String :=
  ((tokens.find? (·.value = value)).map (·.contexts)).getD []

/-- Each value stands once in the first table, with its uses in the two others added up. -/
structure AddsUp (all left right : List TokenUsage) : Prop where
  once : (all.map (·.value)).Nodup
  usage : ∀ value, usageIn all value = usageIn left value + usageIn right value

/-- The colors add up, and each of them has the properties that it has in either table, each of
them once. -/
structure ColorsAddUp (all left right : List ColorToken) : Prop where
  counts : AddsUp (all.map ColorToken.counted) (left.map ColorToken.counted)
    (right.map ColorToken.counted)
  nodup : ∀ value, (contextsIn all value).Nodup
  contexts : ∀ value context, context ∈ contextsIn all value ↔
    context ∈ contextsIn left value ∨ context ∈ contextsIn right value

/-- The tables differ in nothing but the order of colors and of the properties that used them. -/
structure SameColors (left right : List ColorToken) : Prop where
  counts : (left.map ColorToken.counted).Perm (right.map ColorToken.counted)
  contexts : ∀ value context,
    context ∈ contextsIn left value ↔ context ∈ contextsIn right value

/-!
A table of uses tells how often each value is used.
-/

section

variable {β : Type} {uses others : List String}

theorem find?_map_distinct {key : β → String} {build : String → β} (keyed : ∀ k, key (build k) = k)
    (uses : List String) (value : String) :
    ((distinct uses).map build).find? (key · = value) =
      if value ∈ uses then some (build value) else none := by
  have same : ((fun entry => decide (key entry = value)) ∘ build) =
      fun k => decide (k = value) := by
    funext k
    rw [Function.comp_apply, keyed]
  rw [List.find?_map, same]
  cases found : (distinct uses).find? (fun k => decide (k = value)) with
  | none =>
      have absent : value ∉ uses := by
        intro member
        have notHere := List.find?_eq_none.mp found value ((mem_distinct uses value).mpr member)
        exact notHere (decide_eq_true rfl)
      rw [if_neg absent]
      rfl
  | some k =>
      obtain rfl : k = value := by simpa using List.find?_some found
      have member : k ∈ uses := (mem_distinct uses k).mp (List.mem_of_find?_eq_some found)
      rw [if_pos member]
      rfl

theorem usageIn_tokenUsages (uses : List String) (value : String) :
    usageIn (tokenUsages uses) value = uses.count value := by
  rw [usageIn, tokenUsages_eq, find?_map_distinct fun _ => rfl]
  split
  case isTrue => rfl
  case isFalse absent => exact (List.count_eq_zero.mpr absent).symm

theorem nodup_tokenUsages (uses : List String) : ((tokenUsages uses).map (·.value)).Nodup := by
  rw [tokenUsages_eq, List.map_map]
  exact (nodup_distinct uses).map fun _ _ same => same

/-- Uses in another order make the same table in another order. -/
theorem tokenUsages_perm (perm : uses.Perm others) :
    (tokenUsages uses).Perm (tokenUsages others) := by
  have keys : (distinct uses).Perm (distinct others) := by
    apply (List.perm_ext_iff_of_nodup (nodup_distinct _) (nodup_distinct _)).mpr
    intro value
    rw [mem_distinct, mem_distinct]
    exact perm.mem_iff
  rw [tokenUsages_eq, tokenUsages_eq]
  have counts : (fun value => TokenUsage.mk value (uses.count value)) =
      fun value => TokenUsage.mk value (others.count value) := by
    funext value
    rw [perm.count_eq]
  rw [counts]
  exact keys.map _

end

/-!
The uses of components are those of each, one after the other.
-/

section

variable {κ : Type} [DecidableEq κ] {xs ys : List Component}

theorem stylesIn_append (xs ys : List Component) :
    stylesIn (xs ++ ys) = stylesIn xs ++ stylesIn ys := List.flatMap_append

theorem stylesIn_perm (perm : xs.Perm ys) : (stylesIn xs).Perm (stylesIn ys) :=
  perm.flatMap_right _

/-- No use is left out, and none is counted twice. -/
theorem usageIn_tableOf (uses : StyleDecl → List (κ × String)) (kind : κ)
    (components : List Component) (value : String) :
    usageIn (tableOf uses kind components) value =
      ((stylesIn components).flatMap uses).count (kind, value) := by
  rw [tableOf, usageIn_tokenUsages, ← List.filterMap_flatMap, List.count_filterMap, List.count]
  congr 1
  funext use
  obtain ⟨other, used⟩ := use
  by_cases same : other = kind
  · simp [same]
  · simp [same]

theorem addsUp_tableOf (uses : StyleDecl → List (κ × String)) (kind : κ)
    (xs ys : List Component) :
    AddsUp (tableOf uses kind (xs ++ ys)) (tableOf uses kind xs) (tableOf uses kind ys) where
  once := nodup_tokenUsages _
  usage value := by
    rw [usageIn_tableOf, usageIn_tableOf, usageIn_tableOf, stylesIn_append, List.flatMap_append,
      List.count_append]

theorem tableOf_perm (uses : StyleDecl → List (κ × String)) (kind : κ) (perm : xs.Perm ys) :
    (tableOf uses kind xs).Perm (tableOf uses kind ys) :=
  tokenUsages_perm ((stylesIn_perm perm).flatMap_right _)

end

/-!
Colors are counted like other values, and each of them keeps the properties that used it.
-/

section

variable {uses : List (String × String)} {value context : String} {xs ys : List Component}

theorem map_counted_colorTokens (role : ColorRole) (components : List Component) :
    (colorTokens (usesOf role components)).map ColorToken.counted =
      tableOf colorsIn role components := by
  have values : (usesOf role components).map (·.1) =
      (stylesIn components).flatMap fun style =>
        (colorsIn style).filterMap fun use => if use.1 = role then some use.2 else none := by
    rw [usesOf, List.map_flatMap]
    congr 1
    funext style
    rw [List.map_filterMap]
    congr 1
    funext use
    split <;> rfl
  rw [tableOf, ← values, colorTokens_eq, tokenUsages_eq, List.map_map]
  rfl

theorem contextsIn_colorTokens (uses : List (String × String)) (value : String) :
    contextsIn (colorTokens uses) value = distinct ((uses.filter (·.1 = value)).map (·.2)) := by
  rw [contextsIn, colorTokens_eq, find?_map_distinct fun _ => rfl]
  split
  case isTrue => rfl
  case isFalse absent =>
    have none : uses.filter (·.1 = value) = [] := by
      apply filter_eq_nil_iff_notMem.mpr
      intro known
      exact absent ((mem_distinct _ _).mp known)
    rw [none]
    rfl

theorem mem_contextsIn_colorTokens :
    context ∈ contextsIn (colorTokens uses) value ↔ (value, context) ∈ uses := by
  rw [contextsIn_colorTokens, mem_distinct, List.mem_map]
  constructor
  · rintro ⟨use, member, rfl⟩
    obtain ⟨isUse, isValue⟩ := List.mem_filter.mp member
    rw [← of_decide_eq_true isValue]
    exact isUse
  · intro isUse
    exact ⟨(value, context), List.mem_filter.mpr ⟨isUse, decide_eq_true rfl⟩, rfl⟩

theorem colorsAddUp_usesOf (role : ColorRole) (xs ys : List Component) :
    ColorsAddUp (colorTokens (usesOf role (xs ++ ys))) (colorTokens (usesOf role xs))
      (colorTokens (usesOf role ys)) where
  counts := by
    rw [map_counted_colorTokens, map_counted_colorTokens, map_counted_colorTokens]
    exact addsUp_tableOf colorsIn role xs ys
  nodup value := by
    rw [contextsIn_colorTokens]
    exact nodup_distinct _
  contexts value context := by
    rw [mem_contextsIn_colorTokens, mem_contextsIn_colorTokens, mem_contextsIn_colorTokens, usesOf,
      stylesIn_append, List.flatMap_append, List.mem_append]
    rfl

theorem sameColors_usesOf (role : ColorRole) (perm : xs.Perm ys) :
    SameColors (colorTokens (usesOf role xs)) (colorTokens (usesOf role ys)) where
  counts := by
    rw [map_counted_colorTokens, map_counted_colorTokens]
    exact tableOf_perm colorsIn role perm
  contexts value context := by
    rw [mem_contextsIn_colorTokens, mem_contextsIn_colorTokens]
    apply List.Perm.mem_iff
    exact (stylesIn_perm perm).flatMap_right _

end

/-- The tokens of components taken together are those of each, added up in every table: the uses of
each value are summed, and the properties that used a color are joined.  Whatever order the
components come in, the values, their uses and these properties are the same. -/
theorem designTokens_append (xs ys : List Component) :
    (∀ role, ColorsAddUp ((Palette.of (xs ++ ys)).tokens role) ((Palette.of xs).tokens role)
      ((Palette.of ys).tokens role)) ∧
    (∀ aspect, AddsUp ((Typography.of (xs ++ ys)).table aspect) ((Typography.of xs).table aspect)
      ((Typography.of ys).table aspect)) ∧
    (∀ kind, AddsUp ((SpacingSystem.of (xs ++ ys)).table kind) ((SpacingSystem.of xs).table kind)
      ((SpacingSystem.of ys).table kind)) ∧
    (xs.Perm ys →
      (∀ role, SameColors ((Palette.of xs).tokens role) ((Palette.of ys).tokens role)) ∧
      (∀ aspect, ((Typography.of xs).table aspect).Perm ((Typography.of ys).table aspect)) ∧
      ∀ kind, ((SpacingSystem.of xs).table kind).Perm ((SpacingSystem.of ys).table kind)) := by
  have tokens : ∀ components role,
      (Palette.of components).tokens role = colorTokens (usesOf role components) := by
    intro components role
    cases role <;> rfl
  have fonts : ∀ components aspect,
      (Typography.of components).table aspect = tableOf fontUses aspect components := by
    intro components aspect
    cases aspect <;> rfl
  have spaces : ∀ components kind,
      (SpacingSystem.of components).table kind = tableOf spacingUses kind components := by
    intro components kind
    cases kind <;> rfl
  simp only [tokens, fonts, spaces]
  refine ⟨fun role => ?_, fun aspect => ?_, fun kind => ?_, fun perm => ⟨?_, ?_, ?_⟩⟩
  · exact colorsAddUp_usesOf role xs ys
  · exact addsUp_tableOf fontUses aspect xs ys
  · exact addsUp_tableOf spacingUses kind xs ys
  · intro role
    exact sameColors_usesOf role perm
  · intro aspect
    exact tableOf_perm fontUses aspect perm
  · intro kind
    exact tableOf_perm spacingUses kind perm

/-- A button with a color that two properties use, and with classes for text and space. -/
def ghostButton : Component :=
  { name := "GhostButton"
    filePath := "/app/GhostButton.tsx"
    framework := reactNative
    props := []
    styles :=
      [{ property := "color", value := "#fff" }, { property := "textColor", value := "#fff" },
        { property := "className", value := "hover:text-blue-500", context := "className" },
        { property := "className", value := "text-lg", context := "className" },
        { property := "marginTop", value := "8" }]
    usageExamples := []
    dependencies := []
    category := generalCategory
    lastModified := default }

/-- Another button that shares a color and a size of text with the first. -/
def linkButton : Component :=
  { ghostButton with
    name := "LinkButton"
    styles :=
      [{ property := "tintColor", value := "1px #fff" }, { property := "fontSize", value := "lg" },
        { property := "fontSize", value := "16" }] }

theorem designTokens_twoButtons :
    [ghostButton, linkButton].Perm [linkButton, ghostButton] ∧
      usageIn (((Palette.of ([ghostButton, linkButton] ++ [linkButton, ghostButton])).tokens
        .text).map ColorToken.counted) "#fff" = 6 ∧
      usageIn ((Typography.of ([ghostButton, linkButton] ++ [linkButton, ghostButton])).table
        .size) "lg" = 4 ∧
      usageIn ((SpacingSystem.of ([ghostButton, linkButton] ++ [linkButton, ghostButton])).table
        .margin) "8" = 2 ∧
      SameColors ((Palette.of [ghostButton, linkButton]).tokens .text)
        ((Palette.of [linkButton, ghostButton]).tokens .text) ∧
      ((SpacingSystem.of [ghostButton, linkButton]).table .margin).Perm
        ((SpacingSystem.of [linkButton, ghostButton]).table .margin) := by
  have perm : [ghostButton, linkButton].Perm [linkButton, ghostButton] := .swap ..
  obtain ⟨colors, fonts, spaces, inOrder⟩ :=
    designTokens_append [ghostButton, linkButton] [linkButton, ghostButton]
  obtain ⟨sameColors, -, sameSpaces⟩ := inOrder perm
  have whites := (colors .text).counts.usage "#fff"
  have sizes := (fonts .size).usage "lg"
  have margins := (spaces .margin).usage "8"
  refine ⟨perm, whites.trans ?_, sizes.trans ?_, margins.trans ?_, sameColors .text,
    sameSpaces .margin⟩
  · decide +kernel
  · decide +kernel
  · decide +kernel

end ComponentAtlas.Design
