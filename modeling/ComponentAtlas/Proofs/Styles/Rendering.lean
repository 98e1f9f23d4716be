/-
Module: ComponentAtlas.Proofs.Styles.Rendering
Purpose: Objects as a script writes them, with blanks and comments between their parts,
  and the entries that are read from them.
Main exports:
  Key, Entry, Object, Object.text, Object.IsWritten, entries_text
-/
import ComponentAtlas.Proofs.Source.Segment
import ComponentAtlas.Proofs.Text.Alphanumeric
import ComponentAtlas.Proofs.Text.Words
import ComponentAtlas.Styles.Sheet

namespace ComponentAtlas.Styles

open ComponentAtlas.Text
open ComponentAtlas.Source

/-- The key of an entry, with or without quotes. -/
inductive Key where
  | word (text : List Char)
  | quoted (quote : Char) (text : List Char)
deriving Repr, DecidableEq

namespace Key

/-- The name that the key gives. -/
def text : Key → List Char
  | .word text => text
  | .quoted _ text => text

def written : Key → List Char
  | .word text => text
  | .quoted quote text => quote :: text ++ [quote]

/-- An identifier, or a name between quotes that has something inside and neither quotes,
backslashes nor line breaks. -/
def IsKey : Key → Prop
  | .word text => text.head?.any startsKey ∧ ∀ c ∈ text, isWord c ∨ c = '$'
  | .quoted quote text =>
      isLineQuote quote ∧ text ≠ [] ∧ ∀ c ∈ text, isLineQuote c = false ∧ c ≠ '\\' ∧ c ≠ '\n'

instance : (key : Key) → Decidable key.IsKey
  | .word text =>
      have := List.decidableBAll (fun c => isWord c ∨ c = '$') text
      inferInstanceAs (Decidable (_ ∧ _))
  | .quoted _ text =>
      have := List.decidableBAll (fun c => isLineQuote c = false ∧ c ≠ '\\' ∧ c ≠ '\n') text
      inferInstanceAs (Decidable (_ ∧ _ ∧ _))

end Key

/-- A key and a value with what stands before, between and after them. -/
structure Entry (α : Type) where
  before : List Char
  key : Key
  afterKey : List Char
  afterColon : List Char
  value : α
  afterValue : List Char

/-- The entry with its value written out. -/
def Entry.map {α : Type} (write : α → List Char) (entry : Entry α) : Entry (List Char) :=
  { entry with value := write entry.value }

def Entry.text (entry : Entry (List Char)) : List Char :=
  entry.before ++ (entry.key.written ++ (entry.afterKey ++ ':' ::
    (entry.afterColon ++ (entry.value ++ entry.afterValue))))

/-- The gaps of an entry are gaps, and no comment is glued to a slash of its value. -/
structure Entry.IsLaidOut (entry : Entry (List Char)) : Prop where
  isKey : entry.key.IsKey
  before : IsGap entry.before
  afterKey : IsGap entry.afterKey
  afterColon : IsGap entry.afterColon
  afterValue : IsGap entry.afterValue
  slash : EndsInSlash entry.value → KeepsSlash entry.afterValue.head?

/-- The value of an entry is closed, has no comma outside brackets, literals and comments,
and is more than blanks and comments. -/
structure IsExpression (value : List Char) : Prop where
  isBody : IsBody [','] value
  notBlank : ¬ isAllBlank (withoutComments value)

/-- The entries of an object.  With an `ending` there is a comma behind the last entry,
if there is one, and the ending behind it. -/
structure Object (α : Type) where
  entries : List (Entry α)
  ending : Option (List Char) := none

/-- Entries with commas between them. -/
def entriesText (ending : Option (List Char)) : List (Entry (List Char)) → List Char
  | [] => ending.getD []
  | entry :: rest =>
    entry.text ++ if rest.isEmpty && ending.isNone then [] else ',' :: entriesText ending rest

/-- What stands between the braces of the object. -/
def Object.text {α : Type} (write : α → List Char) (object : Object α) : List Char :=
  entriesText object.ending (object.entries.map (Entry.map write))

/-- The entries of the object are laid out and have values of the given kind. -/
structure Object.IsWritten {α : Type} (write : α → List Char) (isValue : α → Prop)
    (object : Object α) : Prop where
  entries : ∀ entry ∈ object.entries, (entry.map write).IsLaidOut ∧ isValue entry.value
  ending : ∀ gap ∈ object.ending, IsGap gap

namespace Key

variable {key : Key} {rest : List Char}

theorem isOrdinary_of_isWord_or {c : Char} (word : isWord c ∨ c = '$') :
    isOrdinary c ∧ c ∉ [','] := by
  rcases word with word | rfl
  · refine ⟨isOrdinary_of_isWord word, ?_⟩
    rw [List.mem_singleton]
    rintro rfl
    cases word
  · decide

theorem isQuoted_of_plain {quote : Char} {text : List Char} (line : isLineQuote quote)
    (plain : ∀ c ∈ text, isLineQuote c = false ∧ c ≠ '\\' ∧ c ≠ '\n') : IsQuoted quote text := by
  refine .of_plain fun c member => ⟨?_, (plain c member).2⟩
  rintro rfl
  have notQuote := (plain c member).1
  rw [line] at notQuote
  cases notQuote

theorem IsKey.isBody (isKey : key.IsKey) : IsBody [','] key.written := by
  cases key with
  | word text => exact .of_ordinary fun c member => isOrdinary_of_isWord_or (isKey.2 c member)
  | quoted quote text =>
      exact .quoted quote isKey.1 (isQuoted_of_plain isKey.1 isKey.2.2) (.nil _)

theorem IsKey.not_endsInSlash (isKey : key.IsKey) : ¬ EndsInSlash key.written := by
  cases key with
  | word text =>
      exact not_endsInSlash_of_ordinary fun c member =>
        (isOrdinary_of_isWord_or (isKey.2 c member)).1
  | quoted quote text =>
      exact fun ends => not_endsInSlash_nil (.later
        (lexemes_literal (.inl ⟨isKey.1, isQuoted_of_plain isKey.1 isKey.2.2⟩)) (by simp) ends)

theorem IsKey.withoutComments (isKey : key.IsKey) : withoutComments key.written = key.written := by
  cases key with
  | word text =>
      exact withoutComments_of_ordinary fun c member =>
        (isOrdinary_of_isWord_or (isKey.2 c member)).1
  | quoted quote text =>
      have inner : IsInside quote text := .inl ⟨isKey.1, isQuoted_of_plain isKey.1 isKey.2.2⟩
      rw [written, withoutComments_literal inner, withoutComments_nil]

theorem IsKey.head?_written (isKey : key.IsKey) :
    ∃ c rest, key.written = c :: rest ∧ isBlank c = false := by
  cases key with
  | word text =>
      cases text with
      | nil => cases isKey.1
      | cons c rest =>
          refine ⟨c, rest, rfl, ?_⟩
          rcases isKey.2 c List.mem_cons_self with word | rfl
          · exact isBlank_of_isWord word
          · rfl
  | quoted quote text =>
      have isQuote : quote = '"' ∨ quote = '\'' := by simpa [isLineQuote] using isKey.1
      refine ⟨quote, text ++ [quote], rfl, ?_⟩
      rcases isQuote with rfl | rfl <;> rfl

/-- The key is read from the front of a text, if the text does not go on as a key
would. -/
theorem IsKey.key?_append (isKey : key.IsKey)
    (stop : ∀ c ∈ rest.head?, continuesKey c = false) :
    key? (key.written ++ rest) = some (key.text, rest) := by
  cases key with
  | word text =>
      obtain ⟨starts, continues⟩ := isKey
      cases text with
      | nil => cases starts
      | cons c text =>
          rw [List.forall_mem_cons] at continues
          have notQuote := (isSingle_of_isOrdinary (isOrdinary_of_isWord_or continues.1).1).1
          have notLineQuote : isLineQuote c = false := by
            simp only [isQuote, Bool.or_eq_false_iff] at notQuote
            exact notQuote.1
          have all : ∀ d ∈ text, continuesKey d := by
            intro d member
            rcases continues.2 d member with word | rfl
            · simp [continuesKey, word]
            · rfl
          have starts : startsKey c := by simpa using starts
          obtain ⟨taken, dropped⟩ := takeWhile_append_stop all stop
          simp only [written, List.cons_append, key?, notLineQuote, starts, taken, dropped]
          simp [Key.text]
  | quoted quote text =>
      obtain ⟨line, ne_nil, plain⟩ := isKey
      have all : ∀ c ∈ text, !isLineQuote c := fun c member => by simp [(plain c member).1]
      have stop : ∀ c ∈ (quote :: rest).head?, (!isLineQuote c) = false := by
        simpa using line
      obtain ⟨taken, dropped⟩ := takeWhile_append_stop all stop
      simp only [written, List.cons_append, List.append_assoc, List.nil_append, key?, line, if_true,
        quotedKey?, taken, dropped]
      cases text with
      | nil => exact absurd rfl ne_nil
      | cons c more => simp [Key.text]

end Key

section

variable {before value after : List Char}

theorem keyValue?_text {key : Key} {afterKey afterColon afterValue : List Char}
    (isKey : key.IsKey) (blanks : isAllBlank before ∧ isAllBlank afterKey ∧
      isAllBlank afterColon ∧ isAllBlank afterValue) (notBlank : ¬ isAllBlank value) :
    keyValue? (before ++ (key.written ++ (afterKey ++ ':' ::
      (afterColon ++ (value ++ afterValue))))) = some (key.text, trim value) := by
  obtain ⟨isBefore, isAfterKey, isAfterColon, isAfterValue⟩ := blanks
  obtain ⟨c, more, written, word⟩ := isKey.head?_written
  have left : trimLeft (before ++ (key.written ++ (afterKey ++ ':' ::
      (afterColon ++ (value ++ afterValue))))) =
      key.written ++ afterKey ++ ':' :: (afterColon ++ value ++ afterValue) := by
    rw [trimLeft, dropWhile_append_of_all isBefore, dropWhile_eq_self (by simp [written, word])]
    simp
  have notAllBlank : ¬ isAllBlank (afterColon ++ value ++ afterValue) := by
    simp [isAllBlank_append, notBlank]
  have shown : trimLeft (trimRight (afterColon ++ value ++ afterValue)) = trim value :=
    trimLeft_trimRight_append isAfterColon isAfterValue notBlank
  have right := @trimRight_append_of_not_blank (key.written ++ (afterKey ++ [':'])) _ notAllBlank
  generalize trimRight (afterColon ++ value ++ afterValue) = rest at shown right
  have trimmed : trim (before ++ (key.written ++ (afterKey ++ ':' ::
      (afterColon ++ (value ++ afterValue))))) = key.written ++ (afterKey ++ ':' :: rest) := by
    rw [trim, left]
    simpa using right
  have stop : ∀ c ∈ (afterKey ++ ':' :: rest).head?, continuesKey c = false := by
    cases afterKey with
    | nil => simp; rfl
    | cons d more =>
        simp only [isAllBlank, List.all_cons, Bool.and_eq_true] at isAfterKey
        have word := isWord_of_isBlank isAfterKey.1
        have other : d ≠ '$' ∧ d ≠ '-' :=
          ⟨ne_of_isBlank isAfterKey.1 rfl, ne_of_isBlank isAfterKey.1 rfl⟩
        simp [continuesKey, word, other]
  have colon : trimLeft (afterKey ++ ':' :: rest) = ':' :: rest := by
    rw [trimLeft, dropWhile_append_of_all isAfterKey, dropWhile_eq_self (by simp; rfl)]
  have ne_nil : trim value ≠ [] := by rwa [Ne, trim_eq_nil_iff]
  simp [keyValue?, trimmed, isKey.key?_append stop, colon, shown, ne_nil]

end

theorem keepsComma : ∀ c ∈ [','], isBlank c = false := forall_mem_of_all (by decide)

namespace Entry

variable {entry : Entry (List Char)}

theorem IsLaidOut.isBody_text (laidOut : entry.IsLaidOut) (value : IsBody [','] entry.value) :
    IsBody [','] entry.text :=
  have behindColon := (laidOut.afterColon.isBody keepsComma).append
    (value.append (laidOut.afterValue.isBody keepsComma) laidOut.slash)
    fun ends => absurd ends laidOut.afterColon.not_endsInSlash
  have behindKey := (laidOut.afterKey.isBody keepsComma).append
    (.ordinary ':' rfl (by decide) behindColon)
    fun ends => absurd ends laidOut.afterKey.not_endsInSlash
  (laidOut.before.isBody keepsComma).append
    (laidOut.isKey.isBody.append behindKey fun ends => absurd ends laidOut.isKey.not_endsInSlash)
    fun ends => absurd ends laidOut.before.not_endsInSlash

theorem IsLaidOut.withoutComments_text (laidOut : entry.IsLaidOut)
    (value : IsBody [','] entry.value) :
    withoutComments entry.text =
      withoutComments entry.before ++ (entry.key.written ++
        (withoutComments entry.afterKey ++ ':' :: (withoutComments entry.afterColon ++
          (withoutComments entry.value ++ withoutComments entry.afterValue)))) := by
  have colon : isQuote ':' = false := rfl
  rw [text,
    (laidOut.before.isBody keepsComma).isLexed.withoutComments_append
      fun ends => absurd ends laidOut.before.not_endsInSlash,
    laidOut.isKey.isBody.isLexed.withoutComments_append
      fun ends => absurd ends laidOut.isKey.not_endsInSlash,
    laidOut.isKey.withoutComments,
    (laidOut.afterKey.isBody keepsComma).isLexed.withoutComments_append
      fun ends => absurd ends laidOut.afterKey.not_endsInSlash,
    withoutComments_code colon (by simp),
    (laidOut.afterColon.isBody keepsComma).isLexed.withoutComments_append
      fun ends => absurd ends laidOut.afterColon.not_endsInSlash,
    value.isLexed.withoutComments_append laidOut.slash]

/-- From an entry without its comments its key and its value are read. -/
theorem IsLaidOut.keyValue? (laidOut : entry.IsLaidOut) (expression : IsExpression entry.value) :
    keyValue? (withoutComments entry.text) =
      some (entry.key.text, trim (withoutComments entry.value)) := by
  rw [laidOut.withoutComments_text expression.isBody]
  exact keyValue?_text laidOut.isKey
    ⟨laidOut.before.isAllBlank_withoutComments, laidOut.afterKey.isAllBlank_withoutComments,
      laidOut.afterColon.isAllBlank_withoutComments,
      laidOut.afterValue.isAllBlank_withoutComments⟩
    expression.notBlank

theorem IsLaidOut.not_isAllBlank (laidOut : entry.IsLaidOut) (value : IsBody [','] entry.value) :
    ¬ isAllBlank (withoutComments entry.text) := by
  obtain ⟨c, rest, written, word⟩ := laidOut.isKey.head?_written
  rw [laidOut.withoutComments_text value, written]
  simp [isAllBlank, word]

end Entry

section

variable {entries : List (Entry (List Char))} {ending : Option (List Char)}

theorem divides_comma : Divides entrySeparation ',' := by decide

theorem keepsSlash_comma : KeepsSlash (some ',') := by decide

theorem isWhole_of_isBody {text : List Char} (body : IsBody [','] text)
    (previous : Option Char) : IsWhole entrySeparation previous text :=
  body.isWhole rfl (by decide) (by decide) previous

theorem isBody_entriesText
    (written : ∀ entry ∈ entries, entry.IsLaidOut ∧ IsExpression entry.value)
    (isGap : ∀ gap ∈ ending, IsGap gap) : IsBody [] (entriesText ending entries) := by
  induction entries with
  | nil =>
      cases ending with
      | none => exact .nil _
      | some gap => exact ((isGap gap rfl).isBody keepsComma).mono (List.nil_subset _)
  | cons entry rest ih =>
      rw [List.forall_mem_cons] at written
      obtain ⟨⟨laidOut, value⟩, written⟩ := written
      have body := (laidOut.isBody_text value.isBody).mono (List.nil_subset _)
      rw [entriesText]
      split
      · rwa [List.append_nil]
      · exact body.append (.ordinary ',' rfl List.not_mem_nil (ih written)) fun _ =>
          keepsSlash_comma

/-- Without comments, entries with commas between them are read one by one. -/
theorem filterMap_segmentsFrom
    (written : ∀ entry ∈ entries, entry.IsLaidOut ∧ IsExpression entry.value)
    (isGap : ∀ gap ∈ ending, IsGap gap) (previous : Option Char) :
    (segmentsFrom entrySeparation previous (withoutComments (entriesText ending entries))).filterMap
        (fun segment => keyValue? segment.text) =
      entries.map fun entry => (entry.key.text, trim (withoutComments entry.value)) := by
  induction entries generalizing previous with
  | nil =>
      have blank : isAllBlank (withoutComments (ending.getD [])) := by
        cases ending with
        | none => exact IsGap.nil.isAllBlank_withoutComments
        | some gap => exact (isGap gap rfl).isAllBlank_withoutComments
      have body : IsBody [','] (ending.getD []) := by
        cases ending with
        | none => exact .nil _
        | some gap => exact (isGap gap rfl).isBody keepsComma
      have whole := isWhole_of_isBody (body.withoutComments (by decide)) previous
      rw [entriesText, segmentsFrom_eq whole, if_pos blank]
      rfl
  | cons entry rest ih =>
      rw [List.forall_mem_cons] at written
      obtain ⟨⟨laidOut, value⟩, written⟩ := written
      have body := laidOut.isBody_text value.isBody
      have whole := isWhole_of_isBody (body.withoutComments (by decide)) previous
      rw [entriesText]
      split
      case isTrue last =>
        have none : rest = [] := by
          simp only [Bool.and_eq_true, List.isEmpty_iff] at last
          exact last.1
        rw [List.append_nil, segmentsFrom_eq whole,
          if_neg (laidOut.not_isAllBlank value.isBody)]
        simp [laidOut.keyValue? value, none]
      case isFalse =>
        have follows : KeepsSlash (',' :: entriesText ending rest).head? := keepsSlash_comma
        rw [body.isLexed.withoutComments_append fun _ => follows,
          withoutComments_code rfl (by simp), segmentsFrom_append whole divides_comma,
          List.filterMap_cons]
        simp only [laidOut.keyValue? value, ih written, List.map_cons]

end

section

variable {α : Type} {write : α → List Char} {isValue : α → Prop} {object : Object α}

theorem Object.IsWritten.mem_entries (written : object.IsWritten write isValue)
    (isExpression : ∀ value, isValue value → IsExpression (write value)) :
    ∀ entry ∈ object.entries.map (Entry.map write), entry.IsLaidOut ∧ IsExpression entry.value := by
  intro _ member
  obtain ⟨entry, isEntry, rfl⟩ := List.mem_map.mp member
  obtain ⟨laidOut, value⟩ := written.entries entry isEntry
  exact ⟨laidOut, isExpression entry.value value⟩

/-- The inside of an object is closed. -/
theorem Object.IsWritten.isBody (written : object.IsWritten write isValue)
    (isExpression : ∀ value, isValue value → IsExpression (write value)) :
    IsBody [] (object.text write) :=
  isBody_entriesText (written.mem_entries isExpression) written.ending

/-- The entries that are read from an object without its comments are those that were
written, each with its value without comments and outer blanks. -/
theorem Object.IsWritten.entries_text (written : object.IsWritten write isValue)
    (isExpression : ∀ value, isValue value → IsExpression (write value)) :
    Styles.entries (withoutComments (object.text write)) =
      object.entries.map fun entry =>
        (entry.key.text, trim (withoutComments (write entry.value))) := by
  rw [Styles.entries, segments_eq_segmentsFrom, Object.text,
    filterMap_segmentsFrom (written.mem_entries isExpression) written.ending, List.map_map]
  rfl

end

end ComponentAtlas.Styles
