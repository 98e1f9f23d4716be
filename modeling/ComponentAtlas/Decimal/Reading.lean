/-
Module: ComponentAtlas.Decimal.Reading
Purpose: Numbers read from text.
Main exports:
  digitsValue, floatOfDecimal, readInt?, readFloat?
-/
import ComponentAtlas.Text.Alphanumeric
import ComponentAtlas.Text.Blank
import ComponentAtlas.Text.LowerCase

namespace ComponentAtlas.Decimal

open ComponentAtlas.Text

/-- The value of a digit sequence, most significant first. -/
def digitsValue (digits : List Nat) : Nat :=
  digits.foldl (fun value digit => 10 * value + digit) 0

/-- The float nearest to `mantissa · 10 ^ exponent`.  Beyond four hundred places
on either side the answer is infinite or zero whatever the digits are, so no
larger power of ten is ever computed. -/
def floatOfDecimal (mantissa : Nat) (exponent : Int) : Float :=
  let size := ((Nat.toDigits 10 mantissa).length : Int) + exponent
  if mantissa = 0 || size < -400 then 0
  else if size > 400 then 1 / 0
  else if exponent < 0 then Float.ofScientific mantissa true (-exponent).toNat
  else Float.ofScientific mantissa false exponent.toNat

/-- The float with a sign put on it; zero keeps the sign too. -/
def withSign (negative : Bool) (value : Float) : Float := if negative then -value else value

/-- An optional sign in front: whether it is a minus, and the rest. -/
def takeSign : List Char → Bool × List Char
  | '-' :: rest => (true, rest)
  | '+' :: rest => (false, rest)
  | text => (false, text)

/-- The longest run of digits, in which one underscore may stand between two
digits, and the rest. -/
def takeDigits : List Char → List Nat × List Char
  | [] => ([], [])
  | [c] =>
    match decimalDigit? c with
    | some digit => ([digit], [])
    | none => ([], [c])
  | c :: d :: rest =>
    match decimalDigit? c with
    | none => ([], c :: d :: rest)
    | some digit =>
      if d = '_' && rest.head?.any (fun next => (decimalDigit? next).isSome) then
        let (digits, after) := takeDigits rest
        (digit :: digits, after)
      else
        let (digits, after) := takeDigits (d :: rest)
        (digit :: digits, after)

/-- The most digits that a whole number may have when it is read or written. -/
def maxIntDigits : Nat := 4300

/-- The blanks that may stand around a number: all but the information
separators. -/
def isMargin (c : Char) : Bool := isBlank c && !(28 ≤ c.toNat && c.toNat ≤ 31)

/-- A whole number with optional sign, blanks around it and single underscores
between digits of any script.  Numbers with too many digits are refused. -/
def readInt? (text : List Char) : Option Int :=
  let (negative, body) := takeSign (trimWhile isMargin text)
  match takeDigits body with
  | ([], _) => none
  | (digits, []) =>
    if digits.length > maxIntDigits then none
    else
      let value : Int := digitsValue digits
      some (if negative then -value else value)
  | _ => none

def takeExponent? : List Char → Option Int
  | [] => some 0
  | e :: rest =>
    if e = 'e' || e = 'E' then
      let (negative, body) := takeSign rest
      match takeDigits body with
      | ([], _) => none
      | (digits, []) =>
        let value : Int := digitsValue digits
        some (if negative then -value else value)
      | _ => none
    else none

/-- A float: a decimal with optional sign, point and exponent, or one of the
words for infinity and for a value that is no number, with blanks around. -/
def readFloat? (text : List Char) : Option Float :=
  let (negative, body) := takeSign (trimWhile isMargin text)
  let word := String.ofList (lower body)
  if word = "inf" || word = "infinity" then some (withSign negative (1 / 0))
  else if word = "nan" then some (0 / 0)
  else
    let (whole, afterWhole) := takeDigits body
    let (part, afterPart) :=
      match afterWhole with
      | '.' :: rest => takeDigits rest
      | rest => ([], rest)
    if whole.isEmpty && part.isEmpty then none
    else
      (takeExponent? afterPart).map fun exponent =>
        withSign negative (floatOfDecimal (digitsValue (whole ++ part)) (exponent - part.length))

end ComponentAtlas.Decimal
