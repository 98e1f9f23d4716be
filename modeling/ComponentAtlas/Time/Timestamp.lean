/-
Module: ComponentAtlas.Time.Timestamp
Purpose: Points in time to the microsecond, their ISO 8601 text, and the times of
  files.
Main exports:
  Timestamp, Timestamp.isDate, Timestamp.ofText?, Timestamp.text, Timestamp.ofFileTime
-/
import ComponentAtlas.Decimal.Shortest
import ComponentAtlas.Text.Search

namespace ComponentAtlas

/-- A wall-clock reading and, when it is known, how far the clock is ahead of
universal time. -/
structure Timestamp where
  /-- Microseconds on the wall clock since the start of 1970. -/
  wall : Int
  /-- Microseconds by which the wall clock is ahead of universal time. -/
  offset : Option Int
deriving Repr, DecidableEq, Inhabited

namespace Timestamp

def second : Int := 1000000

def day : Int := 86400 * second

/-!
Calendar days are counted in eras of 400 years that begin on the first of March,
so that a leap day is the last day of its year.
-/

def eraDays : Int := 146097

/-- Days from the start of 1970 to a date of the calendar. -/
def daysOfDate (year month date : Int) : Int :=
  let shifted := if month ≤ 2 then year - 1 else year
  let era := shifted.fdiv 400
  let yearOfEra := shifted - era * 400
  let monthOfYear := (month + 9).fmod 12
  let dayOfYear := (153 * monthOfYear + 2) / 5 + date - 1
  let dayOfEra := yearOfEra * 365 + yearOfEra / 4 - yearOfEra / 100 + dayOfYear
  era * eraDays + dayOfEra - 719468

/-- The date of the calendar, as year, month and day, a number of days after the
start of 1970. -/
def dateOfDays (days : Int) : Int × Int × Int :=
  let shifted := days + 719468
  let era := shifted.fdiv eraDays
  let dayOfEra := shifted - era * eraDays
  let yearOfEra := (dayOfEra - dayOfEra / 1460 + dayOfEra / 36524 - dayOfEra / 146096) / 365
  let dayOfYear := dayOfEra - (365 * yearOfEra + yearOfEra / 4 - yearOfEra / 100)
  let monthOfYear := (5 * dayOfYear + 2) / 153
  let date := dayOfYear - (153 * monthOfYear + 2) / 5 + 1
  let month := if monthOfYear < 10 then monthOfYear + 3 else monthOfYear - 9
  (yearOfEra + era * 400 + (if month ≤ 2 then 1 else 0), month, date)

/-- The year of the calendar on the wall clock. -/
def year (time : Timestamp) : Int := (dateOfDays (time.wall.fdiv day)).1

/-- The wall clock shows a date: dates are in the years from 1 to 9999. -/
def isDate (time : Timestamp) : Bool := 1 ≤ time.year && time.year ≤ 9999

/-- A number with zeros in front, up to `size` digits. -/
def digits (size : Nat) (n : Int) : List Char :=
  Decimal.padLeft size (Nat.toDigits 10 n.toNat)

/-- Hours, minutes and seconds of a time of day, with microseconds when there are
some. -/
def clockText (micros : Int) : List Char :=
  let seconds := micros / second
  let rest := micros % second
  digits 2 (seconds / 3600) ++ [':'] ++ digits 2 (seconds / 60 % 60) ++ [':'] ++
    digits 2 (seconds % 60) ++ (if rest = 0 then [] else '.' :: digits 6 rest)

/-- The offset from universal time; its seconds appear only when there are
some. -/
def offsetText (offset : Int) : List Char :=
  let size : Int := offset.natAbs
  let clock := clockText size
  (if offset < 0 then '-' else '+') ::
    (if size % (60 * second) = 0 then clock.take 5 else clock)

/-- The text of a point in time with a numeric offset. -/
def numericText (time : Timestamp) : List Char :=
  let (year, month, date) := dateOfDays (time.wall.fdiv day)
  digits 4 year ++ ['-'] ++ digits 2 month ++ ['-'] ++ digits 2 date ++ ['T'] ++
    clockText (time.wall.fmod day) ++ (time.offset.map offsetText).getD []

/-- The text of a point in time; universal time is marked by the letter `Z`. -/
def text (time : Timestamp) : String :=
  String.ofList (Text.replaceAll "+00:00".toList ['Z'] (numericText time))

/-- A number of exactly `size` ASCII digits, and the rest. -/
def number? (size : Nat) (text : List Char) : Option (Int × List Char) :=
  let found := text.take size
  if found.length = size && found.all Char.isDigit then
    some (found.foldl (fun n c => 10 * n + ((c.toNat - '0'.toNat : Nat) : Int)) 0,
      text.drop size)
  else none

/-- The rest after a given character. -/
def mark? (c : Char) : List Char → Option (List Char)
  | d :: rest => if c = d then some rest else none
  | [] => none

/-- Microseconds of a fraction of a second; digits after the sixth are cut. -/
def fractionMicros (found : List Char) : Int :=
  ((number? 6 ((found ++ List.replicate 6 '0').take 6)).map (·.1)).getD 0

/-- The two digits that come next in a time of day: behind a colon, or at once in the
compact form. -/
def pair? (compact : Bool) (text : List Char) : Option (Int × List Char) :=
  if compact then number? 2 text else (mark? ':' text).bind (number? 2)

/-- The fraction of a second that comes next, if there is one, behind a point or a
comma. -/
def fraction : List Char → Int × List Char
  | mark :: rest =>
    if mark = '.' || mark = ',' then
      (fractionMicros (rest.takeWhile Char.isDigit), rest.dropWhile Char.isDigit)
    else (0, mark :: rest)
  | [] => (0, [])

/-- A time of day, of which minutes, seconds and their fraction may be missing. -/
def clock? (text : List Char) : Option (Int × List Char) := do
  let (hours, afterHours) ← number? 2 text
  let compact := afterHours.head? ≠ some ':'
  match pair? compact afterHours with
  | none => pure (hours * 3600 * second, afterHours)
  | some (minutes, afterMinutes) =>
    let base := (hours * 3600 + minutes * 60) * second
    match pair? compact afterMinutes with
    | none => pure (base, afterMinutes)
    | some (seconds, afterSeconds) =>
      let (micros, rest) := fraction afterSeconds
      pure (base + seconds * second + micros, rest)

/-- An offset at the end of a text; the outer option fails on anything else. -/
def offset? (text : List Char) : Option (Option Int) :=
  match text with
  | [] => some none
  | ['Z'] => some (some 0)
  | sign :: rest =>
    match clock? rest with
    | some (size, []) =>
      if sign = '+' then some (some size)
      else if sign = '-' then some (some (-size))
      else none
    | _ => none

def ofText? (text : String) : Option Timestamp := do
  let (year, afterYear) ← number? 4 text.toList
  let (month, afterMonth) ← number? 2 (← mark? '-' afterYear)
  let (date, afterDate) ← number? 2 (← mark? '-' afterMonth)
  let days := daysOfDate year month date * day
  match afterDate with
  | [] => pure { wall := days, offset := none }
  | _ :: rest =>
    let (time, afterTime) ← clock? rest
    let offset ← offset? afterTime
    pure { wall := days + time, offset := offset }

/-- The point in time on the common scale; `none` when the offset is not
known. -/
def instant? (time : Timestamp) : Option Int := time.offset.map (time.wall - ·)

/-- `left` is at or after `right`; `none` when only one of them has an offset. -/
def atLeast? (left right : Timestamp) : Option Bool :=
  match left.instant?, right.instant? with
  | some a, some b => some (b ≤ a)
  | none, none => some (right.wall ≤ left.wall)
  | _, _ => none

/-- The time of a file that was changed `micros` microseconds after the start of
1970.  The time passes through a float of seconds, which is exact enough for
every date near the present.  The time of a file may lie in a year without dates. -/
def ofFileTime (micros : Int) : Timestamp :=
  let seconds := micros.fdiv second
  let nanos := micros.fmod second * 1000
  let time := Float.ofInt seconds + 1e-9 * Float.ofInt nanos
  let whole := if time < 0 then time.ceil else time.floor
  let part := (Decimal.Binary.ofFloat? ((time - whole) * 1e6)).map Decimal.Binary.nearestInt
  let size := (Decimal.Binary.ofFloat? whole).map Decimal.Binary.nearestInt
  { wall := size.getD 0 * second + part.getD 0, offset := some 0 }

end Timestamp

end ComponentAtlas
