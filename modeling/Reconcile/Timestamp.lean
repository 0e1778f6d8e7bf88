import Reconcile.Text.Blank
import Reconcile.Text.Pieces

/-!
# Timestamp — instants of the civil calendar

An instant is a count of seconds from 1970-01-01T00:00:00Z and the nanoseconds past them; a leap
second is the second before it with nanoseconds from one thousand million on.  Instants are read
from and written in the form `2024-03-05T06:07:08Z`.
-/

namespace Reconcile

/-- An instant. -/
structure Timestamp where
  seconds : Int
  nanos : Nat
deriving DecidableEq, Inhabited

/-- A day of the proleptic Gregorian calendar. -/
structure CivilDate where
  year : Int
  month : Nat
  day : Nat
deriving DecidableEq

namespace CivilDate

/-- A year with a 29th of February. -/
def isLeapYear (year : Int) : Bool := year % 4 == 0 && (year % 100 != 0 || year % 400 == 0)

/-- The number of days of a month. -/
def monthLength (year : Int) (month : Nat) : Nat :=
  match month with
  | 2 => if isLeapYear year then 29 else 28
  | 4 | 6 | 9 | 11 => 30
  | _ => 31

/-- Instants reach the year. -/
def isReached (year : Int) : Bool := -262143 ≤ year && year ≤ 262142

/-- The date exists, in a year that instants reach. -/
def isValid (d : CivilDate) : Bool :=
  1 ≤ d.month && d.month ≤ 12 && 1 ≤ d.day && d.day ≤ monthLength d.year d.month &&
    isReached d.year

/-- The days from 1970-01-01 to a date.  Years are counted from March, so that the day between two
of them is the last one of the earlier. -/
def toDays (d : CivilDate) : Int :=
  let year := if d.month ≤ 2 then d.year - 1 else d.year
  let era := year / 400
  let yearOfEra := year % 400
  let monthFromMarch : Int := if d.month ≤ 2 then d.month + 9 else (d.month : Int) - 3
  let dayOfYear := (153 * monthFromMarch + 2) / 5 + d.day - 1
  let dayOfEra := yearOfEra * 365 + yearOfEra / 4 - yearOfEra / 100 + dayOfYear
  era * 146097 + dayOfEra - 719468

/-- The date that lies a number of days after 1970-01-01. -/
def ofDays (days : Int) : CivilDate :=
  let shifted := days + 719468
  let era := shifted / 146097
  let dayOfEra := shifted % 146097
  let yearOfEra := (dayOfEra - dayOfEra / 1460 + dayOfEra / 36524 - dayOfEra / 146096) / 365
  let dayOfYear := dayOfEra - (365 * yearOfEra + yearOfEra / 4 - yearOfEra / 100)
  let monthFromMarch := (5 * dayOfYear + 2) / 153
  let day := dayOfYear - (153 * monthFromMarch + 2) / 5 + 1
  let month := if monthFromMarch < 10 then monthFromMarch + 3 else monthFromMarch - 9
  let year := yearOfEra + era * 400 + (if month ≤ 2 then 1 else 0)
  ⟨year, month.toNat, day.toNat⟩

end CivilDate

namespace Timestamp

/-! ## Writing -/

/-- The date of an instant. -/
def date (t : Timestamp) : CivilDate := CivilDate.ofDays (t.seconds / 86400)

/-- The second of the day. -/
def secondOfDay (t : Timestamp) : Nat := (t.seconds % 86400).toNat

/-- A year takes four digits; one before 0 or past 9999 has a sign. -/
def yearText (year : Int) : String :=
  if 0 ≤ year ∧ year ≤ 9999 then padded 4 year.toNat
  else (if year < 0 then "-" else "+") ++ padded 4 year.natAbs

/-- The date of an instant as text. -/
def dateText (t : Timestamp) : String :=
  let d := t.date
  yearText d.year ++ "-" ++ padded 2 d.month ++ "-" ++ padded 2 d.day

/-- The time of day of an instant as text; a leap second is the sixtieth. -/
def timeText (t : Timestamp) : String :=
  let s := t.secondOfDay
  padded 2 (s / 3600) ++ ":" ++ padded 2 (s / 60 % 60) ++ ":"
    ++ padded 2 (s % 60 + t.nanos / 1000000000)

/-- The fraction of a second with as few of three, six or nine digits as are exact. -/
def fractionText (t : Timestamp) : String :=
  let n := t.nanos % 1000000000
  if n = 0 then ""
  else if n % 1000000 = 0 then "." ++ padded 3 (n / 1000000)
  else if n % 1000 = 0 then "." ++ padded 6 (n / 1000)
  else "." ++ padded 9 n

/-- The written form of an instant. -/
def text (t : Timestamp) : String := t.dateText ++ "T" ++ t.timeText ++ t.fractionText ++ "Z"

/-- An instant for a reader: date, time and zone. -/
def display (t : Timestamp) : String := t.dateText ++ " " ++ t.timeText ++ " UTC"

/-! ## Reading -/

/-- The number that digits write. -/
private def digitsNumber (digits : List Char) : Nat :=
  digits.foldl (fun n c => 10 * n + (c.toNat - '0'.toNat)) 0

/-- Reads a number of at most `width` digits, blanks before it dropped. -/
def readNumber (width : Nat) (cs : List Char) : Option (Nat × List Char) :=
  let cs := cs.dropWhile isBlank
  let digits := (cs.take width).takeWhile Char.isDigit
  if digits.isEmpty then none else some (digitsNumber digits, cs.drop digits.length)

/-- Reads a year: four digits, or any number of them behind a sign. -/
def readYear (cs : List Char) : Option (Int × List Char) :=
  match cs.dropWhile isBlank with
  | '-' :: rest => unpadded rest fun n => -(n : Int)
  | '+' :: rest => unpadded rest fun n => n
  | rest => (readNumber 4 rest).map fun r => (r.1, r.2)
where
  /-- Reads digits that follow the sign at once. -/
  unpadded (cs : List Char) (f : Nat → Int) : Option (Int × List Char) :=
    let digits := cs.takeWhile Char.isDigit
    if digits.isEmpty then none
    else some (f (digitsNumber digits), cs.drop digits.length)

/-- Reads a mark, blanks before it dropped. -/
def readMark (mark : Char) (cs : List Char) : Option (List Char) :=
  match cs.dropWhile isBlank with
  | c :: rest => if c = mark then some rest else none
  | [] => none

/-- Reads a fraction of a second into nanoseconds; digits past the ninth are dropped. -/
def readFraction : List Char → Option (Nat × List Char)
  | '.' :: rest =>
    let digits := rest.takeWhile Char.isDigit
    let kept := digits.take 9
    if digits.isEmpty then none
    else some (digitsNumber kept * Nat.pow 10 (9 - kept.length), rest.drop digits.length)
  | rest => some (0, rest)

/-- Reads the distance from Greenwich, in seconds. -/
def readZone (cs : List Char) : Option (Int × List Char) :=
  if equalIgnoringCase (String.ofList (cs.take 3)) "utc" then some (0, cs.drop 3) else
  match cs with
  | 'Z' :: rest => some (0, rest)
  | 'z' :: rest => some (0, rest)
  | '+' :: rest => signed 1 rest
  | '-' :: rest => signed (-1) rest
  | '\u2212' :: rest => signed (-1) rest
  | _ => none
where
  /-- Reads hours and minutes behind a sign. -/
  signed (sign : Int) : List Char → Option (Int × List Char)
    | a :: b :: rest =>
      match rest.dropWhile (fun c => c == ':' || isBlank c) with
      | c :: d :: rest =>
        if a.isDigit && b.isDigit && c.isDigit && d.isDigit && c ≤ '5' then
          let hours := digitsNumber [a, b]
          if hours < 24 then some (sign * (hours * 3600 + digitsNumber [c, d] * 60), rest) else none
        else none
      | _ => none
    | _ => none

/-- The separator between date and time. -/
def readSeparator : List Char → Option (List Char)
  | 't' :: rest => some rest
  | 'T' :: rest => some rest
  | ' ' :: rest => some rest
  | _ => none

/-- Reads an instant.  Blanks may stand around the parts of the date, of the time and of the
zone.  The year has to be one that instants reach, in the zone that is written and in Greenwich. -/
def parse? (s : String) : Option Timestamp := do
  let (year, cs) ← readYear s.toList
  let cs ← readMark '-' cs
  let (month, cs) ← readNumber 2 cs
  let cs ← readMark '-' cs
  let (day, cs) ← readNumber 2 cs
  let cs ← readSeparator cs
  let (hour, cs) ← readNumber 2 cs
  let cs ← readMark ':' cs
  let (minute, cs) ← readNumber 2 cs
  let cs ← readMark ':' cs
  let (second, cs) ← readNumber 2 cs
  let (nanos, cs) ← readFraction cs
  let (zone, cs) ← readZone (cs.dropWhile isBlank)
  let date : CivilDate := ⟨year, month, day⟩
  guard (cs.all isBlank && date.isValid && hour < 24 && minute < 60 && second ≤ 60)
  let leap := second == 60
  let clock := hour * 3600 + minute * 60 + (if leap then 59 else second)
  let t : Timestamp :=
    ⟨date.toDays * 86400 + clock - zone, nanos + (if leap then 1000000000 else 0)⟩
  guard (CivilDate.isReached t.date.year)
  return t

/-- The start of the count. -/
def epoch : Timestamp := ⟨0, 0⟩

end Timestamp

end Reconcile
