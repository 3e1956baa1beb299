/-!
# Civil time

Dates of the proleptic Gregorian calendar, wall clock times with nanoseconds, instants as
nanoseconds since 1970-01-01T00:00:00Z, and the civil reading of an instant at a fixed offset.

Years are counted from March within cycles of 400 years, so a leap day ends its year and month
lengths follow one linear rule.
-/

namespace TypedSql.Calendar

/-- A date. -/
structure Date where
  year : Int
  month : Nat
  day : Nat
deriving DecidableEq, Repr, Inhabited

/-- A wall clock time. -/
structure Time where
  hour : Nat
  minute : Nat
  second : Nat
  nanosecond : Nat
deriving DecidableEq, Repr, Inhabited

/-- A date and a wall clock time, without an offset. -/
structure DateTime where
  date : Date
  time : Time
deriving DecidableEq, Repr, Inhabited

/-- An instant, in nanoseconds since the start of 1970 UTC. -/
structure Instant where
  nanoseconds : Int
deriving DecidableEq, Repr, Inhabited

/-- An instant together with the UTC offset in seconds that it is read at. -/
structure Zoned where
  instant : Instant
  offset : Int
deriving DecidableEq, Repr, Inhabited

/-- Leap years of the Gregorian calendar. -/
def isLeap (year : Int) : Bool := year % 4 == 0 && (year % 100 != 0 || year % 400 == 0)

/-- The number of days in a month. -/
def daysIn (year : Int) : Nat → Nat
  | 2 => if isLeap year then 29 else 28
  | 4 | 6 | 9 | 11 => 30
  | _ => 31

/-- A date that exists, in the years that are written with four digits. -/
def Date.Valid (d : Date) : Prop :=
  -9999 ≤ d.year ∧ d.year ≤ 9999 ∧ 1 ≤ d.month ∧ d.month ≤ 12 ∧
    1 ≤ d.day ∧ d.day ≤ daysIn d.year d.month

/-- A time of day. -/
def Time.Valid (t : Time) : Prop :=
  t.hour < 24 ∧ t.minute < 60 ∧ t.second < 60 ∧ t.nanosecond < 1000000000

/-- The days from 1970-01-01 to a date. -/
def Date.toDays (d : Date) : Int :=
  let year := if d.month ≤ 2 then d.year - 1 else d.year
  let month : Int := (d.month + 9) % 12
  let cycle := year / 400
  let yearOfCycle := year - cycle * 400
  let dayOfYear := (153 * month + 2) / 5 + d.day - 1
  cycle * 146097 + (yearOfCycle * 365 + yearOfCycle / 4 - yearOfCycle / 100 + dayOfYear) - 719468

/-- The date a number of days after 1970-01-01. -/
def Date.ofDays (days : Int) : Date :=
  let shifted := days + 719468
  let cycle := shifted / 146097
  let dayOfCycle := shifted - cycle * 146097
  let yearOfCycle :=
    (dayOfCycle - dayOfCycle / 1460 + dayOfCycle / 36524 - dayOfCycle / 146096) / 365
  let dayOfYear := dayOfCycle - (365 * yearOfCycle + yearOfCycle / 4 - yearOfCycle / 100)
  let month := (5 * dayOfYear + 2) / 153
  let day := dayOfYear - (153 * month + 2) / 5 + 1
  let year := cycle * 400 + yearOfCycle
  if month < 10 then ⟨year, (month + 3).toNat, day.toNat⟩
  else ⟨year + 1, (month - 9).toNat, day.toNat⟩

/-- Nanoseconds in a day. -/
def dayLength : Int := 86400000000000

/-- The time of day a number of nanoseconds after midnight. -/
def Time.ofNanoseconds (n : Nat) : Time :=
  let seconds := n / 1000000000
  ⟨seconds / 3600, seconds / 60 % 60, seconds % 60, n % 1000000000⟩

/-- The civil date and time at a number of nanoseconds since the start of 1970. -/
def DateTime.ofNanoseconds (n : Int) : DateTime :=
  ⟨.ofDays (n / dayLength), .ofNanoseconds (n % dayLength).toNat⟩

/-- The civil reading of an instant in UTC. -/
def Instant.toDateTime (t : Instant) : DateTime := .ofNanoseconds t.nanoseconds

/-- The civil reading of an instant at its offset. -/
def Zoned.toDateTime (z : Zoned) : DateTime :=
  .ofNanoseconds (z.instant.nanoseconds + z.offset * 1000000000)

end TypedSql.Calendar
