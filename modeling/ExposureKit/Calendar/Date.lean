import ExposureKit.Text.Decimal

/-!
# Dates

Dates of the proleptic Gregorian calendar from the first day of `firstYear` to the
last day of `lastYear`; there is a year 0. A `Date` carries the proof that it
exists. `dayNumber` counts days, `ofDayNumber?` is its inverse where there is one,
and `daysBefore?` goes back by counting; `pred?` is the day before as the calendar
says it.
-/

namespace ExposureKit

/-! ## The calendar -/

/-- The first year that has dates. -/
def firstYear : Int := -262143

/-- The last year that has dates. -/
def lastYear : Int := 262142

/-- Every fourth year is a leap year, except that of the centuries only every
fourth is. -/
def isLeap (year : Int) : Bool :=
  year % 4 == 0 && (year % 100 != 0 || year % 400 == 0)

/-- How many days a month has. -/
def daysInMonth (year : Int) (month : Nat) : Nat :=
  if month = 2 then (if isLeap year then 29 else 28)
  else if month = 4 ∨ month = 6 ∨ month = 9 ∨ month = 11 then 30
  else 31

/-- There is such a date. -/
def DateExists (year : Int) (month day : Nat) : Prop :=
  firstYear ≤ year ∧ year ≤ lastYear ∧ 1 ≤ month ∧ month ≤ 12 ∧
    1 ≤ day ∧ day ≤ daysInMonth year month

instance (year : Int) (month day : Nat) : Decidable (DateExists year month day) := by
  unfold DateExists; infer_instance

/-- A date of the calendar. -/
structure Date where
  /-- The year; 0 is the year before 1. -/
  year : Int
  /-- The month, from 1. -/
  month : Nat
  /-- The day of the month, from 1. -/
  day : Nat
  /-- The calendar has this date. -/
  dateExists : DateExists year month day
  deriving DecidableEq

namespace Date

/-- The date with these numbers, if there is one. -/
def ofNumbers? (year : Int) (month day : Nat) : Option Date :=
  if h : DateExists year month day then some ⟨year, month, day, h⟩ else none

/-! ## Counting days -/

/-- The days from 1 March of the year 0 to a date. Years are counted from March,
so that the leap day comes last. -/
def dayNumber (date : Date) : Int :=
  let year := if 3 ≤ date.month then date.year else date.year - 1
  let month := if 3 ≤ date.month then date.month - 3 else date.month + 9
  365 * year + year / 4 - year / 100 + year / 400 + ((153 * month + 2) / 5 : Nat) + date.day - 1

/-- The date that so many days after 1 March of the year 0, if the calendar reaches
so far. Periods of 400, 100, 4 and 1 years are taken off in turn. -/
def ofDayNumber? (number : Int) : Option Date :=
  let inEra := (number % 146097).toNat
  let century := min 3 (inEra / 36524)
  let inCentury := inEra - 36524 * century
  let inCycle := inCentury % 1461
  let yearOfCycle := min 3 (inCycle / 365)
  let inYear := inCycle - 365 * yearOfCycle
  let year : Int :=
    400 * (number / 146097) + (100 * century + 4 * (inCentury / 1461) + yearOfCycle : Nat)
  let month := (5 * inYear + 2) / 153
  let day := inYear - (153 * month + 2) / 5 + 1
  if month < 10 then ofNumbers? year (month + 3) day else ofNumbers? (year + 1) (month - 9) day

/-- The date so many days earlier, if the calendar reaches so far back. -/
def daysBefore? (date : Date) (days : Nat) : Option Date :=
  ofDayNumber? (date.dayNumber - days)

/-- The day before, by the calendar: the day before in the month, or the last day of
the month before. -/
def pred? (date : Date) : Option Date :=
  if 1 < date.day then ofNumbers? date.year date.month (date.day - 1)
  else if 1 < date.month then
    ofNumbers? date.year (date.month - 1) (daysInMonth date.year (date.month - 1))
  else ofNumbers? (date.year - 1) 12 31

/-- A date, and so many days in all back from it, the latest first. What lies before
the first year is left out. -/
def lastDays (today : Date) (days : Nat) : List Date :=
  (List.range days).filterMap today.daysBefore?

/-! ## The text of a date -/

/-- The text of a year: four digits, or a sign and at least four digits where four
digits do not tell the year. -/
def yearText (year : Int) : List Char :=
  if 0 ≤ year ∧ year ≤ 9999 then Decimal.padded 4 year.toNat
  else (if year < 0 then '-' else '+') :: Decimal.padded 4 year.natAbs

/-- The text of a date: year, month and day without separators. -/
def text (date : Date) : List Char :=
  yearText date.year ++ Decimal.padded 2 date.month ++ Decimal.padded 2 date.day

/-- The year of a text: digits, after a sign or without one. -/
def readYear? : List Char → Option Int
  | '-' :: digits => (Decimal.read? digits).map fun n => -(n : Int)
  | '+' :: digits => (Decimal.read? digits).map fun n => (n : Int)
  | digits => (Decimal.read? digits).map fun n => (n : Int)

/-- The date of a text: its last four digits are month and day. -/
def read? (text : List Char) : Option Date := do
  let length := text.length - 4
  let year ← readYear? (text.take length)
  let month ← Decimal.read? ((text.drop length).take 2)
  let day ← Decimal.read? ((text.drop length).drop 2)
  ofNumbers? year month day

end Date

end ExposureKit
