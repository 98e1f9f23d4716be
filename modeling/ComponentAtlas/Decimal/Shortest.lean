/-
Module: ComponentAtlas.Decimal.Shortest
Purpose: The shortest decimal that reads back as a given float, and its text.
Main exports:
  Digits, shortest, FloatStyle, FloatStyle.render, plainStyle
-/
import ComponentAtlas.Decimal.Binary

namespace ComponentAtlas.Decimal

/-!
A float stands for every real number that rounds to it.  Among the decimals in
that interval the text shows one with the fewest digits and, of those, the one
nearest to the exact value.  For a given number of digits the candidates are the
two neighbours of the value on the decimal grid with that many digits: if any
point of the grid lies in the interval, so does one of the two.
-/

/-- A decimal `digits · 10 ^ exponent`. -/
structure Digits where
  digits : Nat
  exponent : Int
deriving Repr, DecidableEq

def digitCount (n : Nat) : Nat := (Nat.toDigits 10 n).length

/-- The position `p` of the leading digit of `4 · mantissa · 2 ^ scale` for a
positive mantissa: the value lies between `10 ^ (p - 1)` and `10 ^ p`. -/
def leadingPosition (mantissa : Nat) (exponent : Int) : Int :=
  let scaled := mantissa * twoTo exponent.toNat * tenTo 400 / twoTo (-exponent).toNat
  (digitCount scaled : Int) - 400

/-- The interval of reals that round to a float, and the float itself, in units
of a decimal grid: all over the common `denominator`. -/
structure Rounding where
  low : Nat
  value : Nat
  high : Nat
  denominator : Nat
  /-- The ends belong to the interval. -/
  closed : Bool

/-- The rounding interval of `mantissa · 2 ^ exponent` on the grid of multiples
of `10 ^ grid`. -/
def Rounding.of (mantissa : Nat) (exponent grid : Int) : Rounding :=
  -- Quarters of the last place make both half-way points whole.
  let scale := twoTo (exponent - 2).toNat * tenTo (-grid).toNat
  let below := if mantissa = twoTo 52 && exponent > -1074 then 1 else 2
  { low := (4 * mantissa - below) * scale
    value := 4 * mantissa * scale
    high := (4 * mantissa + 2) * scale
    denominator := twoTo (2 - exponent).toNat * tenTo grid.toNat
    closed := mantissa % 2 = 0 }

def Rounding.admits (r : Rounding) (point : Nat) : Bool :=
  let place := point * r.denominator
  if r.closed then r.low ≤ place && place ≤ r.high
  else r.low < place && place < r.high

/-- The admitted neighbour of the value on the grid; of two the nearer, and of
two equally near the even one. -/
def Rounding.neighbour? (r : Rounding) : Option Nat :=
  let down := r.value / r.denominator
  let up := down + 1
  match r.admits down, r.admits up with
  | false, false => none
  | true, false => some down
  | false, true => some up
  | true, true => some (roundHalfEven r.value r.denominator)

/-- Try ever finer grids, starting with `count` digits. -/
def shortestFrom (mantissa : Nat) (exponent position : Int) (count : Nat) :
    Nat → Digits
  | 0 => { digits := mantissa * twoTo exponent.toNat, exponent := 0 }
  | tries + 1 =>
    let grid := position - count
    match (Rounding.of mantissa exponent grid).neighbour? with
    | some digits => { digits, exponent := grid }
    | none => shortestFrom mantissa exponent position (count + 1) tries

/-- The shortest decimal that reads back as the positive float
`mantissa · 2 ^ exponent`.  Seventeen digits always suffice. -/
def shortest (mantissa : Nat) (exponent : Int) : Digits :=
  shortestFrom mantissa exponent (leadingPosition mantissa exponent) 1 17

/-- How a float is written. -/
structure FloatStyle where
  /-- The least and greatest decimal exponents that are written positionally. -/
  positional : Int × Int
  /-- Least number of digits of a written exponent. -/
  exponentDigits : Nat
  /-- The words for infinity and for a value that is no number. -/
  infinity : String
  notANumber : String

def padLeft (size : Nat) (digits : List Char) : List Char :=
  List.replicate (size - digits.length) '0' ++ digits

def significant (digits : Nat) : List Char :=
  ((Nat.toDigits 10 digits).reverse.dropWhile (· = '0')).reverse

/-- Positional text of the digits with the decimal point after `point` of them;
there is always a digit on both sides of the point. -/
def positionalText (digits : List Char) (point : Int) : List Char :=
  if point ≤ 0 then ['0', '.'] ++ List.replicate (-point).toNat '0' ++ digits
  else
    let whole := digits.take point.toNat
    let part := digits.drop point.toNat
    whole ++ List.replicate (point.toNat - whole.length) '0' ++ ['.'] ++
      (if part.isEmpty then ['0'] else part)

def exponentText (style : FloatStyle) (digits : List Char) (exponent : Int) :
    List Char :=
  digits.take 1 ++ (if digits.length > 1 then '.' :: digits.drop 1 else []) ++
    ['e', if exponent < 0 then '-' else '+'] ++
    padLeft style.exponentDigits (Nat.toDigits 10 exponent.natAbs)

def FloatStyle.render (style : FloatStyle) (value : Float) : String :=
  match Binary.ofFloat? value with
  | none =>
    if value.isNaN then style.notANumber
    else if value < 0 then "-" ++ style.infinity else style.infinity
  | some exact =>
    let body :=
      if exact.mantissa = 0 then ['0', '.', '0']
      else
        let decimal := shortest exact.mantissa exact.exponent
        let digits := significant decimal.digits
        -- The digit count before zeros are cut fixes the place of the point.
        let point := decimal.exponent + digitCount decimal.digits
        let exponent := point - 1
        if style.positional.1 ≤ exponent && exponent ≤ style.positional.2 then
          positionalText digits point
        else exponentText style digits exponent
    String.ofList (if exact.negative then '-' :: body else body)

/-- Floats in messages: positional from `1e-4` to below `1e16`. -/
def plainStyle : FloatStyle :=
  { positional := (-4, 15), exponentDigits := 2, infinity := "inf", notANumber := "nan" }

/-- Floats in JSON documents: the same digits, and other words for what is no finite
number. -/
def jsonStyle : FloatStyle :=
  { plainStyle with infinity := "Infinity", notANumber := "NaN" }

/-- A share as a percentage without decimals; a half goes to the even
neighbour. -/
def percentText (share : Float) : String :=
  match Binary.ofFloat? (share * 100) with
  | some exact => toString exact.nearestInt ++ "%"
  | none => plainStyle.render share ++ "%"

end ComponentAtlas.Decimal
