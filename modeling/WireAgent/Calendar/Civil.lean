/-!
# The civil calendar

Days are counted from 1 January of the year 1, which is day 0, in the Gregorian calendar extended
to all years from 1 to 9999. `dayNumber` counts the days up to a date and `ofDayNumber` finds the
date of a day: the last year that begins on or before it, then the last such month.
-/

namespace WireAgent.Calendar

/-- A leap year has 29 days in February. -/
def isLeap (year : Nat) : Bool := year % 4 = 0 && (year % 100 ≠ 0 || year % 400 = 0)

/-- The days before 1 January of a year. -/
def daysBeforeYear (year : Nat) : Nat :=
  let past := year - 1
  365 * past + past / 4 - past / 100 + past / 400

/-- The days of a year before the first of a month. -/
def daysBeforeMonth (year month : Nat) : Nat :=
  let leap := if 2 < month && isLeap year then 1 else 0
  leap + match month with
    | 0 | 1 => 0
    | 2 => 31
    | 3 => 59
    | 4 => 90
    | 5 => 120
    | 6 => 151
    | 7 => 181
    | 8 => 212
    | 9 => 243
    | 10 => 273
    | 11 => 304
    | _ => 334

/-- A date of the civil calendar. -/
structure Date where
  year : Nat
  month : Nat
  day : Nat
  deriving DecidableEq, Repr

namespace Date

/-- The number of a date's day. -/
def dayNumber (date : Date) : Nat :=
  daysBeforeYear date.year + daysBeforeMonth date.year date.month + date.day - 1

/-- The last year up to `year` that begins on or before a day. -/
def yearOf (number : Nat) : Nat → Nat
  | 0 => 1
  | year + 1 => if daysBeforeYear (year + 1) ≤ number then year + 1 else yearOf number year

/-- The last month up to `month` that begins on or before a day of a year. -/
def monthOf (year dayOfYear : Nat) : Nat → Nat
  | 0 => 1
  | month + 1 =>
    if daysBeforeMonth year (month + 1) ≤ dayOfYear then month + 1 else monthOf year dayOfYear month

/-- The date of a day. -/
def ofDayNumber (number : Nat) : Date :=
  let year := yearOf number (number / 365 + 1)
  let dayOfYear := number - daysBeforeYear year
  let month := monthOf year dayOfYear 12
  ⟨year, month, dayOfYear - daysBeforeMonth year month + 1⟩

end Date

/-- The last year of the calendar. -/
def lastYear : Nat := 9999

/-- The number of days of the calendar. -/
def dayCount : Nat := daysBeforeYear (lastYear + 1)

end WireAgent.Calendar
