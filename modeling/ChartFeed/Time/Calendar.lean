/-!
# The proleptic Gregorian calendar

Days are counted from 1 January 1970.

* `Date` is a year, a month and a day, and `Date.Valid` says that the calendar has it;
* `Date.dayNumber` counts the days up to a date and `Date.ofDayNumber` finds the date of a count;
* `Date.addMonths` moves by months and keeps the day, or the last day of a shorter month.

Counting runs through years that begin in March, so that the day missing in February is the last
one of its year.
-/

set_option autoImplicit false

namespace ChartFeed

/-- A day of the calendar. -/
structure Date where
  year : Int
  month : Nat
  day : Nat
deriving DecidableEq, Repr

namespace Date

/-- Every fourth year is a leap year, but of the centuries only every fourth. -/
def isLeapYear (year : Int) : Bool :=
  decide (year % 4 = 0) && (decide (year % 100 ≠ 0) || decide (year % 400 = 0))

/-- The length of a month. -/
def daysInMonth (year : Int) (month : Nat) : Nat :=
  if month = 2 then if isLeapYear year then 29 else 28
  else if month = 4 ∨ month = 6 ∨ month = 9 ∨ month = 11 then 30
  else 31

/-- The first and the last year in which instants exist. -/
def firstYear : Int := -262143

/-- The last year in which instants exist. -/
def lastYear : Int := 262142

/-- The calendar has this day, and instants exist on it. -/
def Valid (d : Date) : Prop :=
  firstYear ≤ d.year ∧ d.year ≤ lastYear ∧ 1 ≤ d.month ∧ d.month ≤ 12 ∧ 1 ≤ d.day
    ∧ d.day ≤ daysInMonth d.year d.month

instance (d : Date) : Decidable d.Valid := inferInstanceAs (Decidable (_ ∧ _))

/-- The number of days from 1 January 1970. -/
def dayNumber (d : Date) : Int :=
  let year := if d.month ≤ 2 then d.year - 1 else d.year
  let fromMarch : Int := if d.month ≤ 2 then d.month + 9 else d.month - 3
  365 * year + year / 4 - year / 100 + year / 400 + (153 * fromMarch + 2) / 5 + d.day - 719469

/-- The date of a day number. -/
def ofDayNumber (n : Int) : Date :=
  let fromMarchOfYearZero := n + 719468
  let era := fromMarchOfYearZero / 146097
  let dayOfEra := fromMarchOfYearZero % 146097
  let yearOfEra :=
    (dayOfEra - dayOfEra / 1460 + dayOfEra / 36524 - dayOfEra / 146096) / 365
  let dayOfYear := dayOfEra - (365 * yearOfEra + yearOfEra / 4 - yearOfEra / 100)
  let fromMarch := (5 * dayOfYear + 2) / 153
  let day := dayOfYear - (153 * fromMarch + 2) / 5 + 1
  let month := if fromMarch < 10 then fromMarch + 3 else fromMarch - 9
  let year := yearOfEra + 400 * era + (if month ≤ 2 then 1 else 0)
  ⟨year, month.toNat, day.toNat⟩

/-- Moves by months; a day that the target month does not have becomes its last. -/
def addMonths (d : Date) (months : Int) : Date :=
  let all := 12 * d.year + (d.month - 1 : Int) + months
  let year := all / 12
  let month := (all % 12).toNat + 1
  ⟨year, month, min d.day (daysInMonth year month)⟩

end Date

end ChartFeed
