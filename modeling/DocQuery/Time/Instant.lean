import DocQuery.Decimal.Style

/-!
# Instants and their text

An instant is a second of Unix time and the nanoseconds into it; a leap second is the second before it with more than a second's
worth of nanoseconds. Its text is the calendar date and the time of day in UTC to the millisecond, as RFC 3339 lays down, so that
texts of instants in the years 0 to 9999 sort like the instants.
-/

namespace DocQuery

/-- A point of time. -/
structure Instant where
  /-- Seconds since the start of 1970. -/
  seconds : Int
  /-- Nanoseconds into the second, a billion or more during a leap second. -/
  nanos : Nat
  deriving DecidableEq, Repr

namespace Instant

/-- Days from the start of year 0 to the start of a year. -/
def daysBeforeYear (y : Int) : Int := 365 * y + (y + 3) / 4 - (y + 99) / 100 + (y + 399) / 400

/-- The day on which Unix time starts, counted from the start of year 0. -/
def epochDay : Int := 719528

/-- The year of a day counted from the start of year 0: four centuries have 146097 days, which gives the year up to one. -/
def yearOfDay (d : Int) : Int :=
  let y := d * 400 / 146097
  if d < daysBeforeYear y then y - 1 else if daysBeforeYear (y + 1) ≤ d then y + 1 else y

/-- Whether a year has a 29th of February. -/
def isLeapYear (y : Int) : Bool := y % 4 == 0 && (y % 100 != 0 || y % 400 == 0)

/-- The lengths of the months of a year. -/
def monthLengths (leap : Bool) : List Nat := [31, if leap then 29 else 28, 31, 30, 31, 30, 31, 31, 30, 31, 30, 31]

/-- The month and the day in it, both from one, of a day of the year from zero; `month` is that of the first length. -/
def monthDay (month : Nat) (day : Nat) : List Nat → Nat × Nat
  | [] => (month, day + 1)
  | length :: rest => if day < length then (month, day + 1) else monthDay (month + 1) (day - length) rest

/-- A natural number with at least `width` digits. -/
def padded (width : Nat) (n : Nat) : List Char :=
  let ds := Decimal.naturalText n
  List.replicate (width - ds.length) '0' ++ ds

/-- A year: four digits, and a sign outside the years 0 to 9999. -/
def yearText (y : Int) : List Char :=
  if 0 ≤ y ∧ y ≤ 9999 then padded 4 y.natAbs
  else (if y < 0 then '-' else '+') :: padded 4 y.natAbs

/-- The date and time of day in UTC, to the millisecond. -/
def chars (t : Instant) : List Char :=
  let day := t.seconds / 86400 + epochDay
  let second := (t.seconds % 86400).toNat
  let year := yearOfDay day
  let (month, dayOfMonth) := monthDay 1 (day - daysBeforeYear year).toNat (monthLengths (isLeapYear year))
  yearText year ++ '-' :: padded 2 month ++ '-' :: padded 2 dayOfMonth ++ 'T' :: padded 2 (second / 3600) ++
    ':' :: padded 2 (second / 60 % 60) ++ ':' :: padded 2 (second % 60 + t.nanos / 1000000000) ++
    '.' :: padded 3 (t.nanos % 1000000000 / 1000000) ++ ['Z']

/-- The text of an instant. -/
def text (t : Instant) : String := String.ofList t.chars

end Instant

end DocQuery
