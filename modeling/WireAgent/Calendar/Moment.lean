import WireAgent.Calendar.Civil
import WireAgent.Number.Digits

/-!
# Moments and timestamps

A `Reading` of a clock is a date, a time of day to the microsecond and an offset from universal
time, or none, in which case the reading is universal time already. `Reading.toUtc` moves a reading
to universal time, which fails outside the years 1 to 9999. Two formats write it: to the millisecond
with the year as it is, and to the microsecond with the year in four digits and the fraction left
out where it is zero. A `Moment` is a reading whose offset is in whole seconds.
-/

namespace WireAgent.Calendar

/-- A reading of a clock; `offset` is in microseconds east of universal time. -/
structure Reading where
  date : Date
  hour : Nat
  minute : Nat
  second : Nat
  microsecond : Nat
  offset : Option Int
  deriving DecidableEq, Repr

/-- A reading of a clock; `offset` is in seconds east of universal time. -/
structure Moment where
  date : Date
  hour : Nat
  minute : Nat
  second : Nat
  microsecond : Nat
  offset : Option Int
  deriving DecidableEq, Repr

/-- A reading in universal time. -/
structure Utc where
  date : Date
  hour : Nat
  minute : Nat
  second : Nat
  microsecond : Nat
  deriving DecidableEq, Repr

/-- Why a reading has no universal time. -/
inductive RangeError
  /-- The universal time lies outside the calendar. -/
  | dateOutOfRange
  /-- The day before a reading without offset lies in a year before the calendar begins. -/
  | yearOutOfRange (year : Nat)
  deriving DecidableEq, Repr

/-- The text of a range error. -/
def RangeError.message : RangeError → String
  | .dateOutOfRange => "date value out of range"
  | .yearOutOfRange year => "year " ++ Number.ofInt year ++ " is out of range"

/-- Seconds of a day. -/
def daySeconds : Nat := 86400

namespace Utc

/-- The reading that many seconds, and microseconds, after the beginning of the calendar. -/
def ofSeconds (seconds microsecond : Nat) : Utc :=
  let time := seconds % daySeconds
  ⟨Date.ofDayNumber (seconds / daySeconds), time / 3600, time / 60 % 60, time % 60, microsecond⟩

/-- The reading that many microseconds after the beginning of the calendar. -/
def ofInstant (instant : Nat) : Utc := ofSeconds (instant / 1000000) (instant % 1000000)

/-- Two digits. -/
def two (n : Nat) : List Char := Number.padded 2 n

/-- The parts of a reading down to the second, the year written by `year`. -/
def stem (year : List Char) (u : Utc) : List Char :=
  year ++ '-' :: two u.date.month ++ '-' :: two u.date.day ++ 'T' :: two u.hour
    ++ ':' :: two u.minute ++ ':' :: two u.second

/-- The timestamp of a reading to the millisecond, cut off. -/
def timestamp (u : Utc) : String :=
  String.ofList (u.stem (Number.decimal u.date.year)
    ++ '.' :: Number.padded 3 (u.microsecond / 1000) ++ ['Z'])

/-- The timestamp of a reading to the microsecond, with the offset of universal time. -/
def rfc3339 (u : Utc) : String :=
  String.ofList (u.stem (Number.padded 4 u.date.year)
    ++ (if u.microsecond = 0 then [] else '.' :: Number.padded 6 u.microsecond)
    ++ "+00:00".toList)

end Utc

namespace Reading

/-- The seconds from the beginning of the calendar to a reading, by its own clock. -/
def localSeconds (r : Reading) : Nat :=
  r.date.dayNumber * daySeconds + r.hour * 3600 + r.minute * 60 + r.second

/-- The microseconds from the beginning of the calendar to a reading, by universal time. -/
def instant (r : Reading) : Int := r.localSeconds * 1000000 + r.microsecond - r.offset.getD 0

/-- A reading in universal time. A reading without offset must not fall on the first day of the
calendar, because its neighbourhood of a day is looked at. -/
def toUtc (r : Reading) : Except RangeError Utc :=
  if r.offset = none ∧ r.date.dayNumber = 0 then .error (.yearOutOfRange 0)
  else if r.instant < 0 ∨ (dayCount * daySeconds * 1000000 : Nat) ≤ r.instant then
    .error .dateOutOfRange
  else .ok (Utc.ofInstant r.instant.toNat)

/-- The timestamp of a reading to the millisecond. -/
def timestamp (r : Reading) : Except RangeError String := r.toUtc.map Utc.timestamp

/-- The timestamp of a reading to the microsecond. -/
def rfc3339 (r : Reading) : Except RangeError String := r.toUtc.map Utc.rfc3339

end Reading

namespace Moment

/-- The reading with its offset in microseconds. -/
def reading (m : Moment) : Reading where
  date := m.date
  hour := m.hour
  minute := m.minute
  second := m.second
  microsecond := m.microsecond
  offset := m.offset.map (· * 1000000)

/-- A reading in universal time. -/
def toUtc (m : Moment) : Except RangeError Utc := m.reading.toUtc

/-- The timestamp of a reading to the millisecond. -/
def timestamp (m : Moment) : Except RangeError String := m.reading.timestamp

/-- The timestamp of a reading to the microsecond. -/
def rfc3339 (m : Moment) : Except RangeError String := m.reading.rfc3339

theorem timestamp_eq (m : Moment) : m.timestamp = m.toUtc.map Utc.timestamp := rfl

theorem rfc3339_eq (m : Moment) : m.rfc3339 = m.toUtc.map Utc.rfc3339 := rfl

end Moment

end WireAgent.Calendar
