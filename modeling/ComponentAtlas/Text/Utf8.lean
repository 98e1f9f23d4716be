/-
Module: ComponentAtlas.Text.Utf8
Purpose: UTF-8: the bytes of a text, and the text of bytes, strictly or with the
  broken parts left out.
Main exports:
  encode, decode, decodeLenient, DecodeFault
-/

namespace ComponentAtlas.Text.Utf8

/-!
A character is a lead byte and up to three continuation bytes.  The lead byte
fixes how many there are and narrows the range of the first of them, so that
overlong forms, surrogates and code points beyond the last plane are broken at
their second byte.
-/

/-- Why bytes are no character. -/
inductive Defect where
  /-- No character starts with the byte. -/
  | badStart
  /-- A byte other than a continuation byte stands inside a character. -/
  | badContinuation
  /-- The bytes end inside a character. -/
  | truncated
deriving Repr, DecidableEq

/-- The first character of some bytes, or why there is none, and the number of
bytes that belong to it. -/
inductive Unit where
  | char (c : Char) (size : Nat)
  | broken (defect : Defect) (size : Nat)
deriving Repr, DecidableEq

/-- Length of the character, range of its second byte and payload of a lead byte
above ASCII. -/
def lead? (byte : Nat) : Option (Nat × (Nat × Nat) × Nat) :=
  if byte < 0xC2 then none
  else if byte < 0xE0 then some (2, (0x80, 0xBF), byte - 0xC0)
  else if byte < 0xF0 then
    some (3, (if byte = 0xE0 then 0xA0 else 0x80, if byte = 0xED then 0x9F else 0xBF),
      byte - 0xE0)
  else if byte < 0xF5 then
    some (4, (if byte = 0xF0 then 0x90 else 0x80, if byte = 0xF4 then 0x8F else 0xBF),
      byte - 0xF0)
  else none

/-- Read `missing` further continuation bytes into `value`; `taken` bytes of the
character have been read. -/
def continuation (value taken : Nat) (range : Nat × Nat) :
    (missing : Nat) → List UInt8 → Unit
  | 0, _ => .char (Char.ofNat value) taken
  | _ + 1, [] => .broken .truncated taken
  | missing + 1, byte :: rest =>
    let b := byte.toNat
    if range.1 ≤ b && b ≤ range.2 then
      continuation (value * 64 + (b - 0x80)) (taken + 1) (0x80, 0xBF) missing rest
    else .broken .badContinuation taken

/-- The first character of bytes that start with `first`. -/
def unit (first : UInt8) (rest : List UInt8) : Unit :=
  let b := first.toNat
  if b < 0x80 then .char (Char.ofNat b) 1
  else
    match lead? b with
    | some (size, range, payload) => continuation payload 1 range (size - 1) rest
    | none => .broken .badStart 1

/-- Bytes that are no text: what is wrong, where, and the byte there. -/
structure DecodeFault where
  defect : Defect
  position : Nat
  size : Nat
  byte : Nat
deriving Repr, DecidableEq

/-- The characters of the bytes; `skip` bytes of the last character are still to
be passed over. -/
def decodeFrom (position skip : Nat) : List UInt8 → Except DecodeFault (List Char)
  | [] => .ok []
  | byte :: rest =>
    match skip with
    | more + 1 => decodeFrom (position + 1) more rest
    | 0 =>
      match unit byte rest with
      | .char c size => (decodeFrom (position + 1) (size - 1) rest).map (c :: ·)
      | .broken defect size => .error { defect, position, size, byte := byte.toNat }

def decode (bytes : List UInt8) : Except DecodeFault (List Char) := decodeFrom 0 0 bytes

/-- The text of the bytes without the broken parts; `skip` as for
`decodeFrom`. -/
def decodeLenientFrom (skip : Nat) : List UInt8 → List Char
  | [] => []
  | byte :: rest =>
    match skip with
    | more + 1 => decodeLenientFrom more rest
    | 0 =>
      match unit byte rest with
      | .char c size => c :: decodeLenientFrom (size - 1) rest
      | .broken _ size => decodeLenientFrom (size - 1) rest

/-- The text of the bytes without the broken parts. -/
def decodeLenient (bytes : List UInt8) : List Char := decodeLenientFrom 0 bytes

def encodeChar (c : Char) : List UInt8 := String.utf8EncodeChar c

def encode (text : List Char) : List UInt8 := text.flatMap encodeChar

def byteText (byte : Nat) : String :=
  String.ofList ([byte / 16, byte % 16].flatMap (Nat.toDigits 16))

def Defect.text : Defect → String
  | .badStart => "invalid start byte"
  | .badContinuation => "invalid continuation byte"
  | .truncated => "unexpected end of data"

/-- The message of a fault names the byte, or the range of the bytes when there
are several. -/
def DecodeFault.message (fault : DecodeFault) : String :=
  let start := "'utf-8' codec can't decode "
  let place :=
    if fault.size = 1 then
      "byte 0x" ++ byteText fault.byte ++ " in position " ++ toString fault.position
    else
      "bytes in position " ++ toString fault.position ++ "-" ++
        toString (fault.position + fault.size - 1)
  start ++ place ++ ": " ++ fault.defect.text

end ComponentAtlas.Text.Utf8
