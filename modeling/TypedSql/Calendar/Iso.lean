import TypedSql.Calendar.Civil
import TypedSql.Numeral.Digits

/-!
# ISO 8601 text

Dates and times as they stand in JSON documents and in messages: a `T` between date and time, a
fraction only where there is one, six-digit years after a minus sign.
-/

namespace TypedSql.Calendar

open Numeral

/-- `2024-01-15`; a negative year has six digits. -/
def Date.text (d : Date) : List Char :=
  (if d.year < 0 then '-' :: padded 6 d.year.natAbs else padded 4 d.year.natAbs) ++
    '-' :: padded 2 d.month ++ '-' :: padded 2 d.day

/-- The fraction of a second, without trailing zeros and absent when zero. -/
def fractionText (nanosecond : Nat) : List Char :=
  if nanosecond = 0 then []
  else '.' :: ((padded 9 nanosecond).reverse.dropWhile (· == '0')).reverse

/-- `10:30:05` or `01:02:03.000004`. -/
def Time.text (t : Time) : List Char :=
  padded 2 t.hour ++ ':' :: padded 2 t.minute ++ ':' :: padded 2 t.second ++
    fractionText t.nanosecond

/-- `2024-01-15T10:30:00`. -/
def DateTime.text (t : DateTime) : List Char := t.date.text ++ 'T' :: t.time.text

/-- The UTC reading of an instant with a final `Z`. -/
def Instant.text (t : Instant) : List Char := t.toDateTime.text ++ ['Z']

/-- The most minutes that an offset shows, 25 hours and 59 minutes. -/
def maxOffsetMinutes : Nat := 1559

/-- Hours and minutes of an offset, to the nearest minute within the range of offsets. -/
def offsetText (seconds : Int) : List Char :=
  let minutes := min maxOffsetMinutes ((seconds.natAbs + 30) / 60)
  (if seconds < 0 then '-' else '+') :: padded 2 (minutes / 60) ++ ':' :: padded 2 (minutes % 60)

/-- The local reading, the offset, and the zone in brackets. -/
def Zoned.text (z : Zoned) : List Char :=
  z.toDateTime.text ++ offsetText z.offset ++
    '[' :: (if z.offset = 0 then "UTC".toList else offsetText z.offset) ++ [']']

end TypedSql.Calendar
