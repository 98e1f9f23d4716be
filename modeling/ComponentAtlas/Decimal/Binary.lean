/-
Module: ComponentAtlas.Decimal.Binary
Purpose: A finite float as an exact binary number, and its rounding to a whole
  number.
Main exports:
  twoTo, tenTo, Binary, Binary.ofFloat?, roundHalfEven, Binary.nearestInt
-/

namespace ComponentAtlas.Decimal

def twoTo (n : Nat) : Nat := Nat.pow 2 n

def tenTo (n : Nat) : Nat := Nat.pow 10 n

/-- The exact value `± mantissa · 2 ^ exponent` of a finite float. -/
structure Binary where
  negative : Bool
  mantissa : Nat
  exponent : Int
deriving Repr, DecidableEq

/-- The exact value of a float; `none` for the infinities and for a value that
is no number. -/
def Binary.ofFloat? (value : Float) : Option Binary :=
  let bits := value.toBits.toNat
  let fraction : Nat := bits % twoTo 52
  let scale : Nat := bits / twoTo 52 % twoTo 11
  let negative := bits / twoTo 63 = 1
  if scale = 2047 then none
  else if scale = 0 then some { negative, mantissa := fraction, exponent := -1074 }
  else some { negative, mantissa := twoTo 52 + fraction, exponent := (scale : Int) - 1075 }

/-- The whole number nearest to `numerator / denominator`; of two equally near
ones the even one. -/
def roundHalfEven (numerator denominator : Nat) : Nat :=
  let quotient := numerator / denominator
  let twice := 2 * (numerator % denominator)
  if twice < denominator then quotient
  else if denominator < twice then quotient + 1
  else quotient + quotient % 2

/-- The nearest whole number; a half goes to the even neighbour. -/
def Binary.nearestInt (value : Binary) : Int :=
  let size : Nat :=
    if 0 ≤ value.exponent then value.mantissa * twoTo value.exponent.toNat
    else roundHalfEven value.mantissa (twoTo (-value.exponent).toNat)
  if value.negative then -(size : Int) else size

/-- The value as a whole number, when it is one. -/
def Binary.wholeNumber? (value : Binary) : Option Int :=
  let scale : Nat := twoTo (-value.exponent).toNat
  if value.mantissa % scale = 0 then
    let size : Int := value.mantissa * twoTo value.exponent.toNat / scale
    some (if value.negative then -size else size)
  else none

end ComponentAtlas.Decimal
