/-
Module: ComponentAtlas.Proofs.Text.Utf8
Purpose: The text of the bytes of a text is that text, whole or in parts.
Main exports:
  unit_encodeChar, decodeLenient_encode, decode_encode
-/
import ComponentAtlas.Text.Utf8

namespace ComponentAtlas.Text.Utf8

section

variable {value taken : Nat} {range : Nat × Nat} {missing : Nat} {rest : List UInt8} {b : Nat}

theorem toNat_ofNat_of_lt (small : b < 256) : (UInt8.ofNat b).toNat = b := by
  rw [UInt8.toNat_ofNat']
  omega

/-- A byte in the range is taken into the value. -/
theorem continuation_ofNat (low : range.1 ≤ b) (high : b ≤ range.2) (small : b < 256) :
    continuation value taken range (missing + 1) (UInt8.ofNat b :: rest) =
      continuation (value * 64 + (b - 0x80)) (taken + 1) (0x80, 0xBF) missing rest := by
  simp [continuation, toNat_ofNat_of_lt small, low, high]

theorem unit_ascii (small : b < 0x80) : unit (UInt8.ofNat b) rest = .char (Char.ofNat b) 1 := by
  rw [unit, toNat_ofNat_of_lt (by omega), if_pos small]

theorem unit_lead {size payload : Nat} (isLead : lead? b = some (size, range, payload))
    (large : 0x80 ≤ b) (small : b < 256) :
    unit (UInt8.ofNat b) rest = continuation payload 1 range (size - 1) rest := by
  rw [unit, toNat_ofNat_of_lt small, if_neg (by omega), isLead]

theorem continuation_done (same : value = b) :
    continuation value taken range 0 rest = .char (Char.ofNat b) taken := by
  rw [continuation, same]

variable {v : Nat}

/-- Two bytes above ASCII, up to eleven bits. -/
theorem unit_two (low : 0x80 ≤ v) (high : v < 0x800) :
    unit (UInt8.ofNat (v / 64 % 32 + 192)) (UInt8.ofNat (v % 64 + 128) :: rest) =
      .char (Char.ofNat v) 2 := by
  have isLead : lead? (v / 64 % 32 + 192) = some (2, (0x80, 0xBF), v / 64 % 32 + 192 - 0xC0) := by
    rw [lead?, if_neg (by omega), if_pos (by omega)]
  rw [unit_lead isLead (by omega) (by omega), continuation_ofNat (by omega) (by omega) (by omega)]
  exact continuation_done (by omega)

/-- Three bytes, up to sixteen bits without the surrogates. -/
theorem unit_three (low : 0x800 ≤ v) (high : v < 0x10000) (noSurrogate : v < 0xD800 ∨ 0xDFFF < v) :
    unit (UInt8.ofNat (v / 4096 % 16 + 224))
        (UInt8.ofNat (v / 64 % 64 + 128) :: UInt8.ofNat (v % 64 + 128) :: rest) =
      .char (Char.ofNat v) 3 := by
  have isLead : lead? (v / 4096 % 16 + 224) =
      some (3, (if v / 4096 % 16 + 224 = 0xE0 then 0xA0 else 0x80,
        if v / 4096 % 16 + 224 = 0xED then 0x9F else 0xBF), v / 4096 % 16 + 224 - 0xE0) := by
    rw [lead?, if_neg (by omega), if_neg (by omega), if_pos (by omega)]
  rw [unit_lead isLead (by omega) (by omega),
    continuation_ofNat (by dsimp only; split <;> omega) (by dsimp only; split <;> omega) (by omega),
    continuation_ofNat (by omega) (by omega) (by omega)]
  exact continuation_done (by omega)

/-- Four bytes, up to the last code point. -/
theorem unit_four (low : 0x10000 ≤ v) (high : v < 0x110000) :
    unit (UInt8.ofNat (v / 262144 % 8 + 240))
        (UInt8.ofNat (v / 4096 % 64 + 128) :: UInt8.ofNat (v / 64 % 64 + 128) ::
          UInt8.ofNat (v % 64 + 128) :: rest) = .char (Char.ofNat v) 4 := by
  have isLead : lead? (v / 262144 % 8 + 240) =
      some (4, (if v / 262144 % 8 + 240 = 0xF0 then 0x90 else 0x80,
        if v / 262144 % 8 + 240 = 0xF4 then 0x8F else 0xBF), v / 262144 % 8 + 240 - 0xF0) := by
    rw [lead?, if_neg (by omega), if_neg (by omega), if_neg (by omega), if_pos (by omega)]
  rw [unit_lead isLead (by omega) (by omega),
    continuation_ofNat (by dsimp only; split <;> omega) (by dsimp only; split <;> omega) (by omega),
    continuation_ofNat (by omega) (by omega) (by omega),
    continuation_ofNat (by omega) (by omega) (by omega)]
  exact continuation_done (by omega)

end

/-- The first character of bytes that start with those of a character is that
character. -/
theorem unit_encodeChar (c : Char) (rest : List UInt8) :
    ∃ first more, encodeChar c = first :: more ∧
      unit first (more ++ rest) = .char c (more.length + 1) := by
  have valid : c.val.toNat < 0xD800 ∨ 0xDFFF < c.val.toNat ∧ c.val.toNat < 0x110000 := c.valid
  have isChar : Char.ofNat c.val.toNat = c := Char.ofNat_toNat c
  rw [encodeChar, String.utf8EncodeChar]
  generalize c.val.toNat = v at valid isChar
  subst isChar
  split
  case isTrue one => exact ⟨_, [], rfl, unit_ascii (by omega)⟩
  split
  case isTrue two => exact ⟨_, _, rfl, unit_two (by omega) (by omega)⟩
  split
  case isTrue three => exact ⟨_, _, rfl, unit_three (by omega) (by omega) (by omega)⟩
  case isFalse four => exact ⟨_, _, rfl, unit_four (by omega) (by omega)⟩

theorem decodeLenientFrom_skip (skipped rest : List UInt8) :
    decodeLenientFrom skipped.length (skipped ++ rest) = decodeLenientFrom 0 rest := by
  induction skipped with
  | nil => rfl
  | cons byte skipped ih => rw [List.cons_append, List.length_cons, decodeLenientFrom, ih]

theorem decodeLenient_encodeChar_append (c : Char) (rest : List UInt8) :
    decodeLenient (encodeChar c ++ rest) = c :: decodeLenient rest := by
  obtain ⟨first, more, encoded, isUnit⟩ := unit_encodeChar c rest
  rw [decodeLenient, encoded, List.cons_append, decodeLenientFrom, isUnit]
  exact congrArg (c :: ·) (decodeLenientFrom_skip more rest)

theorem encode_append (text after : List Char) :
    encode (text ++ after) = encode text ++ encode after := List.flatMap_append

/-- Decoding undoes encoding. -/
theorem decodeLenient_encode (text : List Char) : decodeLenient (encode text) = text := by
  induction text with
  | nil => rfl
  | cons c text ih =>
      have encoded : encode (c :: text) = encodeChar c ++ encode text := List.flatMap_cons
      rw [encoded, decodeLenient_encodeChar_append, ih]

/-!
Decoding that refuses broken bytes also counts positions, which say nothing when no byte
is broken.
-/

theorem decodeFrom_skip (position : Nat) (skipped rest : List UInt8) :
    decodeFrom position skipped.length (skipped ++ rest) =
      decodeFrom (position + skipped.length) 0 rest := by
  induction skipped generalizing position with
  | nil => rfl
  | cons byte skipped ih =>
      rw [List.cons_append, List.length_cons, decodeFrom, ih, Nat.add_right_comm, Nat.add_assoc]

theorem decodeFrom_encodeChar_append (position : Nat) (c : Char) (rest : List UInt8) :
    ∃ later, decodeFrom position 0 (encodeChar c ++ rest) = (decodeFrom later 0 rest).map (c :: ·) := by
  obtain ⟨first, more, encoded, isUnit⟩ := unit_encodeChar c rest
  refine ⟨position + 1 + more.length, ?_⟩
  rw [encoded, List.cons_append, decodeFrom, isUnit]
  exact congrArg (Except.map (c :: ·)) (decodeFrom_skip (position + 1) more rest)

theorem decode_encode (text : List Char) : decode (encode text) = .ok text := by
  suffices anywhere : ∀ position, decodeFrom position 0 (encode text) = .ok text from anywhere 0
  induction text with
  | nil => exact fun _ => rfl
  | cons c text ih =>
      intro position
      have encoded : encode (c :: text) = encodeChar c ++ encode text := List.flatMap_cons
      obtain ⟨later, isDecoded⟩ := decodeFrom_encodeChar_append position c (encode text)
      rw [encoded, isDecoded, ih]
      rfl

end ComponentAtlas.Text.Utf8
