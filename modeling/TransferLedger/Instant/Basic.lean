import TransferLedger.Decimal.Basic

/-!
Points in time to the nanosecond, counted from the beginning of 1970 in UTC, their calendar dates
and their written form `YYYY-MM-DDTHH:MM:SS[.fraction]` with the shortest exact fraction of zero, three,
six or nine digits and the offset from UTC, which is `Z`, or `+00:00` in columns of a database.
-/
namespace TransferLedger
set_option autoImplicit false

/-- Whole seconds since 1970 and nanoseconds within the second. A leap second is the second before
it with more than 10^9 nanoseconds. -/
structure Instant where
  seconds : Int
  nanos : Nat
deriving DecidableEq, Repr, Inhabited

/-- A day of the calendar. -/
structure CalendarDate where
  year : Int
  month : Nat
  day : Nat
deriving DecidableEq, Repr

namespace CalendarDate

/-- Every fourth year has a leap day, of the centuries only every fourth. -/
def isLeapYear (y : Int) : Bool := y % 4 == 0 && (y % 100 != 0 || y % 400 == 0)

def daysInMonth (y : Int) (m : Nat) : Nat :=
  match m with
  | 2 => if isLeapYear y then 29 else 28
  | 4 | 6 | 9 | 11 => 30
  | _ => 31

/-- Days from 1970-01-01 to a date. The count runs in eras of 400 years that begin on the first of
March, so that a leap day is the last day of its year. -/
def toDays (d : CalendarDate) : Int :=
  let y := if d.month ≤ 2 then d.year - 1 else d.year
  let era := Int.fdiv y 400
  let yearOfEra := y - era * 400
  let monthFromMarch : Int := (d.month + 9) % 12
  let dayOfYear := (153 * monthFromMarch + 2) / 5 + d.day - 1
  let dayOfEra := yearOfEra * 365 + yearOfEra / 4 - yearOfEra / 100 + dayOfYear
  era * 146097 + dayOfEra - 719468

/-- The date a number of days after 1970-01-01. -/
def ofDays (days : Int) : CalendarDate :=
  let z := days + 719468
  let era := Int.fdiv z 146097
  let dayOfEra := z - era * 146097
  let yearOfEra := (dayOfEra - dayOfEra / 1460 + dayOfEra / 36524 - dayOfEra / 146096) / 365
  let dayOfYear := dayOfEra - (365 * yearOfEra + yearOfEra / 4 - yearOfEra / 100)
  let monthFromMarch := (5 * dayOfYear + 2) / 153
  let day := dayOfYear - (153 * monthFromMarch + 2) / 5 + 1
  let month := if monthFromMarch < 10 then monthFromMarch + 3 else monthFromMarch - 9
  let year := yearOfEra + era * 400 + (if month ≤ 2 then 1 else 0)
  ⟨year, month.toNat, day.toNat⟩

end CalendarDate

namespace Instant

/-- The beginning of 1970. -/
def epoch : Instant := ⟨0, 0⟩

def cmp (a b : Instant) : Ordering := (compare a.seconds b.seconds).then (compare a.nanos b.nanos)

def date (t : Instant) : CalendarDate := .ofDays (Int.fdiv t.seconds 86400)

def secondOfDay (t : Instant) : Nat := (Int.fmod t.seconds 86400).toNat

/-! ## Written form -/

/-- Four digits for the years 0 to 9999; every other year has a sign. -/
def yearChars (y : Int) : List Char :=
  if 0 ≤ y ∧ y ≤ 9999 then Decimal.paddedDigits 4 y.toNat
  else (if y < 0 then '-' else '+') :: Decimal.paddedDigits 4 y.natAbs

/-- The shortest of no, three, six or nine fraction digits that is exact. -/
def fractionChars (nanos : Nat) : List Char :=
  if nanos = 0 then []
  else if nanos % 1000000 = 0 then '.' :: Decimal.paddedDigits 3 (nanos / 1000000)
  else if nanos % 1000 = 0 then '.' :: Decimal.paddedDigits 6 (nanos / 1000)
  else '.' :: Decimal.paddedDigits 9 nanos

/-- Date and time of day as characters. A leap second is written as second 60. -/
def clockChars (t : Instant) : List Char :=
  let d := t.date
  let s := t.secondOfDay
  let leap := 1000000000 ≤ t.nanos
  let second := s % 60 + (if leap then 1 else 0)
  let nanos := if leap then t.nanos - 1000000000 else t.nanos
  yearChars d.year ++ '-' :: Decimal.paddedDigits 2 d.month ++ '-' :: Decimal.paddedDigits 2 d.day
    ++ 'T' :: Decimal.paddedDigits 2 (s / 3600) ++ ':' :: Decimal.paddedDigits 2 (s / 60 % 60)
    ++ ':' :: Decimal.paddedDigits 2 second ++ fractionChars nanos

/-- The written form as characters. -/
def chars (t : Instant) : List Char := t.clockChars ++ ['Z']

def text (t : Instant) : String := String.ofList t.chars

/-- The form in columns of a database, which sort as texts: the offset is spelled out. -/
def columnText (t : Instant) : String :=
  String.ofList (t.clockChars ++ ['+', '0', '0', ':', '0', '0'])

end Instant

end TransferLedger
