import TypedSql.Calendar.Civil
import TypedSql.Numeral.Digits

/-!
# Temporal literals

Dates and times as they stand inside SQL literals: a blank between date and time, always six
fraction digits, finer parts cut off, and the offset in hours and minutes.
-/

namespace TypedSql.Literal

open Calendar Numeral

/-- A year in four characters, the minus sign of a negative one among them. -/
def yearText (year : Int) : List Char :=
  if year < 0 then '-' :: padded 3 year.natAbs else padded 4 year.natAbs

/-- A date. -/
def dateText (d : Date) : List Char :=
  yearText d.year ++ '-' :: padded 2 d.month ++ '-' :: padded 2 d.day

/-- A time of day in microseconds. -/
def timeText (t : Time) : List Char :=
  padded 2 t.hour ++ ':' :: padded 2 t.minute ++ ':' :: padded 2 t.second ++
    '.' :: padded 6 (t.nanosecond / 1000)

/-- A date and a time of day. -/
def dateTimeText (t : DateTime) : List Char := dateText t.date ++ ' ' :: timeText t.time

/-- An instant in UTC. -/
def instantText (t : Instant) : List Char := dateTimeText t.toDateTime ++ "+00:00".toList

/-- Hours and minutes of an offset; seconds are cut off. -/
def offsetText (seconds : Int) : List Char :=
  let n := seconds.natAbs
  (if seconds < 0 then '-' else '+') :: padded 2 (n / 3600) ++ ':' :: padded 2 (n % 3600 / 60)

/-- An instant at its offset. -/
def zonedText (z : Zoned) : List Char := dateTimeText z.toDateTime ++ offsetText z.offset

end TypedSql.Literal
