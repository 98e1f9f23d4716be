/-
Module: ComponentAtlas.Proofs.Data.Json
Purpose: What is read from a JSON document has distinct keys, and what is written has no
  carriage returns.
Main exports:
  Json.isProper_read, Json.NoReturn, Json.noReturn_writeIndented,
  Json.exists_writeIndented_map
-/
import ComponentAtlas.Data.Json
import ComponentAtlas.Proofs.Data.Mapping

namespace ComponentAtlas.Json

variable {text rest : List Char} {found : Data}

theorem map_eq_ok {α β ε : Type} {first : Except ε α} {change : α → β} {done : β} :
    first.map change = .ok done ↔ ∃ value, first = .ok value ∧ change value = done := by
  cases first <;> simp [Except.map]

/-!
Reading: only mappings have keys, and these are written one by one.
-/

theorem isProper_word? (isWord : word? text = some (found, rest)) : found.IsProper := by
  obtain ⟨⟨word, value⟩, member, isFound⟩ := List.exists_of_findSome?_eq_some isWord
  obtain ⟨after, -, isPair⟩ := Option.map_eq_some_iff.mp isFound
  cases isPair
  simp only [wordsOfGrammar, List.mem_cons, Prod.mk.injEq, List.not_mem_nil, or_false] at member
  rcases member with ⟨-, rfl⟩ | ⟨-, rfl⟩ | ⟨-, rfl⟩ | ⟨-, rfl⟩ | ⟨-, rfl⟩ | ⟨-, rfl⟩
  all_goals constructor

theorem isProper_number {negative : Bool} (isNumber : number negative text = .ok (found, rest)) :
    found.IsProper := by
  unfold number at isNumber
  dsimp only at isNumber
  repeat' split at isNumber
  all_goals cases isNumber
  all_goals constructor

theorem isProper_scalar (isScalar : scalar text = .ok (found, rest)) : found.IsProper := by
  unfold scalar at isScalar
  split at isScalar
  · obtain ⟨⟨value, after⟩, -, isPair⟩ := map_eq_ok.mp isScalar
    cases isPair
    exact .text value
  · split at isScalar
    · rename_i isWord
      cases isScalar
      exact isProper_word? isWord
    · split at isScalar
      · exact isProper_number isScalar
      · exact isProper_number isScalar

/-- Everything that is read with some fuel is proper. -/
structure ReadsProper (fuel : Nat) : Prop where
  value : ∀ {text rest found}, value fuel text = .ok (found, rest) → found.IsProper
  items : ∀ {text rest found}, items fuel text = .ok (found, rest) → ∀ item ∈ found, item.IsProper
  members : ∀ {text rest found}, members fuel text = .ok (found, rest) →
    ∀ entry ∈ found, entry.2.IsProper

theorem readsProper (fuel : Nat) : ReadsProper fuel := by
  induction fuel with
  | zero =>
      constructor
      · intro text rest found isRead
        cases isRead
      · intro text rest found isRead
        cases isRead
      · intro text rest found isRead
        cases isRead
  | succ fuel ih =>
      constructor
      · intro text rest found isRead
        unfold value at isRead
        split at isRead
        · split at isRead
          · cases isRead
            exact .list (by simp)
          · obtain ⟨⟨found, after⟩, areItems, isPair⟩ := map_eq_ok.mp isRead
            cases isPair
            exact .list (ih.items areItems)
        · split at isRead
          · cases isRead
            exact .map List.nodup_nil (by simp)
          · obtain ⟨⟨found, after⟩, areMembers, isPair⟩ := map_eq_ok.mp isRead
            cases isPair
            exact .ofPairs (ih.members areMembers)
        · exact isProper_scalar isRead
      · intro text rest found isRead
        unfold items at isRead
        obtain ⟨⟨item, after⟩, isItem, isRead⟩ := bind_eq_ok.mp isRead
        have isProper := ih.value isItem
        dsimp only at isRead
        split at isRead
        · cases isRead
          exact List.forall_mem_singleton.mpr isProper
        · obtain ⟨⟨others, last⟩, areOthers, isPair⟩ := bind_eq_ok.mp isRead
          cases isPair
          exact List.forall_mem_cons.mpr ⟨isProper, ih.items areOthers⟩
        · cases isRead
      · intro text rest found isRead
        unfold members at isRead
        split at isRead
        · obtain ⟨⟨key, after⟩, -, isRead⟩ := bind_eq_ok.mp isRead
          dsimp only at isRead
          split at isRead
          · obtain ⟨⟨item, more⟩, isItem, isRead⟩ := bind_eq_ok.mp isRead
            have isProper := ih.value isItem
            dsimp only at isRead
            split at isRead
            · cases isRead
              exact List.forall_mem_singleton.mpr isProper
            · obtain ⟨⟨others, last⟩, areOthers, isPair⟩ := bind_eq_ok.mp isRead
              cases isPair
              exact List.forall_mem_cons.mpr ⟨isProper, ih.members areOthers⟩
            · cases isRead
          · cases isRead
        · cases isRead

theorem isProper_read {text : String} (isRead : read text = .ok found) : found.IsProper := by
  obtain ⟨⟨value, rest⟩, isValue, isRead⟩ := bind_eq_ok.mp isRead
  dsimp only at isRead
  split at isRead
  · cases isRead
    exact (readsProper _).value isValue
  · cases isRead

/-!
Writing: the only line breaks are line feeds, so a file holds the text as it was written
whatever becomes of carriage returns when it is read.
-/

/-- There is no carriage return in the text. -/
def NoReturn (text : String) : Prop := '\r' ∉ text.toList

instance (text : String) : Decidable (NoReturn text) :=
  inferInstanceAs (Decidable (_ ∉ text.toList))

theorem noReturn_append {first second : String} :
    NoReturn (first ++ second) ↔ NoReturn first ∧ NoReturn second := by
  simp [NoReturn, not_or]

theorem noReturn_intercalate {separator : String} {parts : List String}
    (separates : NoReturn separator) (each : ∀ part ∈ parts, NoReturn part) :
    NoReturn (separator.intercalate parts) := by
  induction parts with
  | nil => simp [NoReturn]
  | cons part rest ih =>
      have isPart := each part List.mem_cons_self
      have isRest := ih fun other member => each other (List.mem_cons_of_mem _ member)
      cases rest with
      | nil => rwa [String.intercalate_singleton]
      | cons next rest =>
          rw [String.intercalate_cons_cons]
          exact noReturn_append.mpr ⟨noReturn_append.mpr ⟨isPart, separates⟩, isRest⟩

theorem return_notMem_toDigits (base n : Nat) : '\r' ∉ Nat.toDigits base n := by
  suffices core : ∀ (fuel n : Nat) (taken : List Char), '\r' ∉ taken →
      '\r' ∉ Nat.toDigitsCore base fuel n taken from core _ _ [] List.not_mem_nil
  intro fuel
  induction fuel with
  | zero => exact fun _ _ free => free
  | succ fuel ih =>
      intro n taken free
      have digit : '\r' ∉ (n % base).digitChar :: taken := by
        rw [List.mem_cons, not_or]
        exact ⟨(Nat.digitChar_ne '\r' (by decide)).symm, free⟩
      rw [Nat.toDigitsCore]
      split
      · exact digit
      · exact ih _ _ digit

theorem noReturn_int (value : Int) : NoReturn (toString value) := by
  have digits (n : Nat) : NoReturn (Nat.repr n) := by
    simpa [NoReturn, Nat.repr] using return_notMem_toDigits 10 n
  cases value with
  | ofNat n => exact digits n
  | negSucc n => exact noReturn_append.mpr ⟨by decide, digits (n + 1)⟩

section Float

open Decimal

theorem return_notMem_significant (digits : Nat) : '\r' ∉ significant digits := by
  intro member
  rw [significant, List.mem_reverse] at member
  have old := List.dropWhile_sublist _ |>.subset member
  exact return_notMem_toDigits 10 digits (List.mem_reverse.mp old)

theorem return_notMem_padLeft {digits : List Char} (free : '\r' ∉ digits) (size : Nat) :
    '\r' ∉ padLeft size digits := by
  simp [padLeft, free, List.mem_replicate]

theorem return_notMem_positionalText {digits : List Char} (free : '\r' ∉ digits) (point : Int) :
    '\r' ∉ positionalText digits point := by
  have first : '\r' ∉ digits.take point.toNat := fun member => free (List.mem_of_mem_take member)
  have later : '\r' ∉ digits.drop point.toNat := fun member => free (List.mem_of_mem_drop member)
  unfold positionalText
  split
  · simp [free, List.mem_replicate]
  · dsimp only
    split <;> simp [first, later, List.mem_replicate]

theorem return_notMem_exponentText (style : FloatStyle) {digits : List Char}
    (free : '\r' ∉ digits) (exponent : Int) : '\r' ∉ exponentText style digits exponent := by
  have first : '\r' ∉ digits.take 1 := fun member => free (List.mem_of_mem_take member)
  have later : '\r' ∉ digits.drop 1 := fun member => free (List.mem_of_mem_drop member)
  have power := return_notMem_padLeft (return_notMem_toDigits 10 exponent.natAbs) style.exponentDigits
  unfold exponentText
  simp only [List.mem_append, not_or, first, power, not_false_eq_true, and_true, true_and]
  constructor
  · split
    · simp only [List.mem_cons, later, or_false]
      decide
    · exact List.not_mem_nil
  · split <;> decide

theorem noReturn_float (value : Float) : NoReturn (jsonStyle.render value) := by
  unfold FloatStyle.render
  split
  · split
    · decide
    · split
      · decide
      · decide
  · rename_i exact _
    dsimp only
    have signed {body : List Char} (free : '\r' ∉ body) :
        NoReturn (String.ofList (if exact.negative then '-' :: body else body)) := by
      unfold NoReturn
      split <;> simp [free]
    refine signed ?_
    split
    · decide
    · have digits := return_notMem_significant (shortest exact.mantissa exact.exponent).digits
      split
      · exact return_notMem_positionalText digits _
      · exact return_notMem_exponentText jsonStyle digits _

end Float

theorem return_notMem_escape (c : Char) : '\r' ∉ escape c := by
  have units (unit : Nat) : '\r' ∉ unitEscape unit := by
    have digits := return_notMem_padLeft (return_notMem_toDigits 16 unit) 4
    simpa [unitEscape, hexText] using digits
  unfold escape
  by_cases isReturn : c = '\r'
  · subst isReturn
    decide
  have ne : '\r' ≠ c := Ne.symm isReturn
  repeat' split
  all_goals simp [units, ne]

theorem noReturn_quoted (text : String) : NoReturn (quoted text) := by
  have free : '\r' ∉ text.toList.flatMap escape := by
    rw [List.mem_flatMap]
    rintro ⟨c, -, member⟩
    exact return_notMem_escape c member
  simp only [NoReturn, quoted, String.toList_ofList, List.mem_append, List.mem_cons,
    List.not_mem_nil, or_false, not_or]
  exact ⟨⟨by decide, free⟩, by decide⟩

mutual

theorem noReturn_write : ∀ data : Data, NoReturn (write data)
  | .null => by decide
  | .bool true => by decide
  | .bool false => by decide
  | .int value => noReturn_int value
  | .float value => noReturn_float value
  | .text value => noReturn_quoted value
  | .list items => by
      have inside := noReturn_intercalate (by decide : NoReturn ",") (noReturn_writeItems items)
      exact noReturn_append.mpr ⟨noReturn_append.mpr ⟨by decide, inside⟩, by decide⟩
  | .map entries => by
      have inside := noReturn_intercalate (by decide : NoReturn ",") (noReturn_writeEntries entries)
      exact noReturn_append.mpr ⟨noReturn_append.mpr ⟨by decide, inside⟩, by decide⟩
  | .foreign _ => noReturn_quoted _

theorem noReturn_writeItems : ∀ items : List Data, ∀ part ∈ writeItems items, NoReturn part
  | [] => by simp [writeItems]
  | item :: rest =>
    List.forall_mem_cons.mpr ⟨noReturn_write item, noReturn_writeItems rest⟩

theorem noReturn_writeEntries :
    ∀ entries : List (Key × Data), ∀ part ∈ writeEntries entries, NoReturn part
  | [] => by simp [writeEntries]
  | (key, value) :: rest => by
      have isFirst : NoReturn (quoted (keyText key) ++ ":" ++ write value) :=
        noReturn_append.mpr ⟨noReturn_append.mpr ⟨noReturn_quoted _, by decide⟩, noReturn_write value⟩
      exact List.forall_mem_cons.mpr ⟨isFirst, noReturn_writeEntries rest⟩

end

theorem noReturn_newLine (depth : Nat) : NoReturn (newLine depth) := by
  simp [NoReturn, newLine, List.mem_replicate]

theorem noReturn_bracketed {opener closer : String} (opens : NoReturn opener)
    (closes : NoReturn closer) (depth : Nat) {parts : List String}
    (each : ∀ part ∈ parts, NoReturn part) : NoReturn (bracketed opener closer depth parts) := by
  have line := noReturn_newLine (depth + 1)
  have inside := noReturn_intercalate
    (noReturn_append.mpr ⟨(by decide : NoReturn ","), line⟩) each
  unfold bracketed
  split
  · exact noReturn_append.mpr ⟨opens, closes⟩
  · simp only [noReturn_append]
    exact ⟨⟨⟨⟨opens, line⟩, inside⟩, noReturn_newLine depth⟩, closes⟩

mutual

theorem noReturn_writeAt (depth : Nat) : ∀ data : Data, NoReturn (writeAt depth data)
  | .list items =>
    noReturn_bracketed (by decide) (by decide) depth (noReturn_writeItemsAt (depth + 1) items)
  | .map entries =>
    noReturn_bracketed (by decide) (by decide) depth (noReturn_writeEntriesAt (depth + 1) entries)
  | .null => noReturn_write .null
  | .bool value => noReturn_write (.bool value)
  | .int value => noReturn_write (.int value)
  | .float value => noReturn_write (.float value)
  | .text value => noReturn_write (.text value)
  | .foreign value => noReturn_write (.foreign value)

theorem noReturn_writeItemsAt (depth : Nat) :
    ∀ items : List Data, ∀ part ∈ writeItemsAt depth items, NoReturn part
  | [] => by simp [writeItemsAt]
  | item :: rest =>
    List.forall_mem_cons.mpr ⟨noReturn_writeAt depth item, noReturn_writeItemsAt depth rest⟩

theorem noReturn_writeEntriesAt (depth : Nat) :
    ∀ entries : List (Key × Data), ∀ part ∈ writeEntriesAt depth entries, NoReturn part
  | [] => by simp [writeEntriesAt]
  | (key, value) :: rest => by
      have isFirst : NoReturn (quoted (keyText key) ++ ": " ++ writeAt depth value) :=
        noReturn_append.mpr
          ⟨noReturn_append.mpr ⟨noReturn_quoted _, by decide⟩, noReturn_writeAt depth value⟩
      exact List.forall_mem_cons.mpr ⟨isFirst, noReturn_writeEntriesAt depth rest⟩

end

theorem noReturn_writeIndented (data : Data) : NoReturn (writeIndented data) :=
  noReturn_writeAt 0 data

/-- A mapping starts with a brace. -/
theorem exists_writeIndented_map (entries : Entries) :
    ∃ rest, writeIndented (.map entries) = "\x7b" ++ rest := by
  rw [writeIndented, writeAt, bracketed]
  split
  · exact ⟨_, rfl⟩
  · simp only [String.append_assoc]
    exact ⟨_, rfl⟩

end ComponentAtlas.Json
