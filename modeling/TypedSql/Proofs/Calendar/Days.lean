import TypedSql.Calendar.Civil

/-!
# Counting days and nanoseconds

Dates count days one by one from 1970-01-01, leap days included, and the date at a number of days
is the one on the calendar that counts them. With the time of day this makes the civil reading of
an instant exact: the nanoseconds of the reading are those of the instant.

Truncation to microseconds cuts down, before 1970 as after it, and commutes with the civil reading.
-/

namespace TypedSql.Calendar

/-! ## Days -/

theorem isLeap_iff (year : Int) :
    isLeap year = true ↔ year % 4 = 0 ∧ (year % 100 ≠ 0 ∨ year % 400 = 0) := by
  simp [isLeap]

/-- Cycles of 400 years have the same leap years. -/
theorem isLeap_cycle (cycle year : Int) : isLeap (cycle * 400 + year) = isLeap year := by
  rw [Bool.eq_iff_iff, isLeap_iff, isLeap_iff]
  omega

namespace Date

/-- A date with a month of the year and a day of the month, in any year. -/
def OnCalendar (d : Date) : Prop :=
  1 ≤ d.month ∧ d.month ≤ 12 ∧ 1 ≤ d.day ∧ d.day ≤ daysIn d.year d.month

/-- The day after a date. -/
def next (d : Date) : Date :=
  if d.day < daysIn d.year d.month then ⟨d.year, d.month, d.day + 1⟩
  else if d.month < 12 then ⟨d.year, d.month + 1, 1⟩
  else ⟨d.year + 1, 1, 1⟩

instance : DecidablePred Valid := fun d =>
  inferInstanceAs (Decidable (-9999 ≤ d.year ∧ d.year ≤ 9999 ∧ 1 ≤ d.month ∧ d.month ≤ 12 ∧
    1 ≤ d.day ∧ d.day ≤ daysIn d.year d.month))

/-- A date that exists is on the calendar. -/
theorem Valid.onCalendar {d : Date} (h : d.Valid) : d.OnCalendar := h.2.2

/-- The first day counted. -/
theorem toDays_epoch : toDays ⟨1970, 1, 1⟩ = 0 := by decide

/-- Each day counts one more than the day before. -/
theorem toDays_next {d : Date} (h : d.OnCalendar) : d.next.toDays = d.toDays + 1 := by
  obtain ⟨year, month, day⟩ := d
  obtain ⟨hmonth, hmonth', hday, hday'⟩ := h
  have hleap := isLeap_iff year
  rw [next]
  dsimp only at *
  split
  next =>
    dsimp only [toDays]
    omega
  next hlast =>
    have hmonths : month = 1 ∨ month = 2 ∨ month = 3 ∨ month = 4 ∨ month = 5 ∨ month = 6 ∨
      month = 7 ∨ month = 8 ∨ month = 9 ∨ month = 10 ∨ month = 11 ∨ month = 12 := by omega
    rcases hmonths with rfl | rfl | rfl | rfl | rfl | rfl | rfl | rfl | rfl | rfl | rfl | rfl
    case inr.inl =>
      -- the length of February is where leap years come in
      cases hy : isLeap year
      all_goals
        simp only [daysIn, hy, if_true, if_false, Bool.false_eq_true, true_iff, false_iff] at *
        simp [toDays]
        omega
    all_goals
      simp only [daysIn] at *
      simp [toDays]
      omega

/-- A day of a cycle of 400 years, counted from March, lies in the year computed for it: the last
day of that year is its 366th only before the end of a leap February. -/
theorem dayOfYear_bounds (day year : Int) (hday : 0 ≤ day) (hday' : day ≤ 146096)
    (hyear : year = (day - day / 1460 + day / 36524 - day / 146096) / 365) :
    0 ≤ year ∧ year ≤ 399 ∧ 0 ≤ day - (365 * year + year / 4 - year / 100) ∧
      (day - (365 * year + year / 4 - year / 100) ≤ 364 ∨
        day - (365 * year + year / 4 - year / 100) = 365 ∧ isLeap (year + 1) = true) := by
  -- the last day of the cycle would begin a fifth century
  have hcentury : day / 36524 = 0 ∨ day / 36524 = 1 ∨ day / 36524 = 2 ∨ day / 36524 = 3 ∨
      day / 36524 = 4 := by omega
  have hhundred : 100 * (day / 36524 - day / 146096) ≤ year ∧
      year < 100 * (day / 36524 - day / 146096 + 1) := by
    rcases hcentury with h | h | h | h | h <;> omega
  have hfour : 1460 * (year / 4) ≤ day ∧ day < 1460 * (year / 4 + 2) := by
    rcases hcentury with h | h | h | h | h <;> omega
  have hquarter : year % 4 ≠ 3 → day < 1460 * (year / 4 + 1) := by
    rcases hcentury with h | h | h | h | h <;> omega
  rw [isLeap_iff]
  refine ⟨by omega, by omega, ?_, ?_⟩
  · rcases hcentury with h | h | h | h | h <;> omega
  · rcases hcentury with h | h | h | h | h
    all_goals
      by_cases h3 : year % 4 = 3
      · omega
      · omega

/-- Counted from March, a date has the days of the cycles, the years and the months before it. -/
theorem toDays_of_march {d : Date} (cycle year month : Int)
    (hyear : (if d.month ≤ 2 then d.year - 1 else d.year) = cycle * 400 + year)
    (hrange : 0 ≤ year ∧ year ≤ 399) (hmonth : ((d.month : Int) + 9) % 12 = month) :
    d.toDays = cycle * 146097 +
      (365 * year + year / 4 - year / 100 + ((153 * month + 2) / 5 + d.day - 1)) - 719468 := by
  have hcycle : (cycle * 400 + year) / 400 = cycle := by omega
  have hrest : cycle * 400 + year - cycle * 400 = year := by omega
  simp only [toDays, hyear, hmonth, hcycle, hrest]
  omega

/-- The date at a number of days counts them. -/
theorem toDays_ofDays (days : Int) : (ofDays days).toDays = days := by
  unfold ofDays
  extract_lets shifted cycle dayOfCycle year dayOfYear month day calendarYear
  obtain ⟨hyear, hyear', hday, hday'⟩ := dayOfYear_bounds dayOfCycle year (by omega) (by omega) rfl
  have hfirst : 0 ≤ dayOfYear := hday
  have hlast : dayOfYear ≤ 365 :=
    hday'.elim (fun h => Int.le_trans h (by decide)) (fun h => Int.le_of_eq h.1)
  have hmonth : 0 ≤ month ∧ month ≤ 11 := by omega
  have hone : 1 ≤ day := by omega
  have hcount : cycle * 146097 +
      (365 * year + year / 4 - year / 100 + ((153 * month + 2) / 5 + day - 1)) - 719468 = days := by
    omega
  clear_value day dayOfYear
  split
  next hlt =>
    rw [toDays_of_march cycle year month, ← hcount]
    · dsimp only
      omega
    · dsimp only
      rw [if_neg (by omega)]
    · exact ⟨hyear, hyear'⟩
    · dsimp only
      omega
  next hge =>
    rw [toDays_of_march cycle year month, ← hcount]
    · dsimp only
      omega
    · dsimp only
      rw [if_pos (by omega)]
      omega
    · exact ⟨hyear, hyear'⟩
    · dsimp only
      omega

/-- The date at a number of days is on the calendar. -/
theorem onCalendar_ofDays (days : Int) : (ofDays days).OnCalendar := by
  unfold ofDays
  extract_lets shifted cycle dayOfCycle year dayOfYear month day calendarYear
  obtain ⟨hyear, hyear', hday, hday'⟩ := dayOfYear_bounds dayOfCycle year (by omega) (by omega) rfl
  have hfirst : 0 ≤ dayOfYear := hday
  have hnext : isLeap (calendarYear + 1) = isLeap (year + 1) := by
    rw [← isLeap_cycle cycle (year + 1), ← Int.add_assoc]
  have hlast : dayOfYear ≤ 364 ∨ dayOfYear = 365 ∧ isLeap (calendarYear + 1) = true := by
    rw [hnext]
    exact hday'
  have hlast' : dayOfYear ≤ 365 :=
    hlast.elim (fun h => Int.le_trans h (by decide)) (fun h => Int.le_of_eq h.1)
  have hm : month = (5 * dayOfYear + 2) / 153 := rfl
  have hd : day = dayOfYear - (153 * month + 2) / 5 + 1 := rfl
  have hmonths : month = 0 ∨ month = 1 ∨ month = 2 ∨ month = 3 ∨ month = 4 ∨ month = 5 ∨
    month = 6 ∨ month = 7 ∨ month = 8 ∨ month = 9 ∨ month = 10 ∨ month = 11 := by omega
  clear_value day dayOfYear month
  rcases hmonths with rfl | rfl | rfl | rfl | rfl | rfl | rfl | rfl | rfl | rfl | rfl | rfl
  case inr.inr.inr.inr.inr.inr.inr.inr.inr.inr.inr =>
    -- February, the last month of the year
    rcases hlast with hlast | ⟨hlast, hleap⟩
    · simp [OnCalendar, daysIn]
      split <;> omega
    · simp [OnCalendar, daysIn, hleap]
      omega
  all_goals
    simp [OnCalendar, daysIn]
    omega

end Date

/-! ## Nanoseconds -/

namespace Time

instance : DecidablePred Valid := fun t =>
  inferInstanceAs (Decidable (t.hour < 24 ∧ t.minute < 60 ∧ t.second < 60 ∧
    t.nanosecond < 1000000000))

/-- Nanoseconds since midnight. -/
def toNanoseconds (t : Time) : Nat :=
  ((t.hour * 60 + t.minute) * 60 + t.second) * 1000000000 + t.nanosecond

theorem toNanoseconds_ofNanoseconds (n : Nat) : (ofNanoseconds n).toNanoseconds = n := by
  simp only [ofNanoseconds, toNanoseconds]
  omega

theorem ofNanoseconds_valid {n : Nat} (h : n < 86400000000000) : (ofNanoseconds n).Valid := by
  simp only [ofNanoseconds, Valid]
  omega

/-- The time of day cut down to whole microseconds. -/
def truncated (t : Time) : Time := { t with nanosecond := t.nanosecond / 1000 * 1000 }

theorem toNanoseconds_truncated (t : Time) :
    t.truncated.toNanoseconds = t.toNanoseconds / 1000 * 1000 := by
  simp only [truncated, toNanoseconds]
  omega

end Time

namespace DateTime

/-- A date on the calendar and a time of day. -/
def Valid (t : DateTime) : Prop := t.date.OnCalendar ∧ t.time.Valid

/-- Nanoseconds since the start of 1970. -/
def toNanoseconds (t : DateTime) : Int := t.date.toDays * dayLength + t.time.toNanoseconds

/-- The civil date and time at a number of nanoseconds count them. -/
theorem toNanoseconds_ofNanoseconds (n : Int) : (ofNanoseconds n).toNanoseconds = n := by
  have hpositive : 0 ≤ n % dayLength := Int.emod_nonneg n (by decide)
  rw [ofNanoseconds, toNanoseconds, Date.toDays_ofDays, Time.toNanoseconds_ofNanoseconds,
    Int.toNat_of_nonneg hpositive, Int.mul_comm, Int.mul_ediv_add_emod]

/-- The civil date and time at any number of nanoseconds exist. -/
theorem ofNanoseconds_valid (n : Int) : (ofNanoseconds n).Valid := by
  have hpositive : 0 ≤ n % dayLength := Int.emod_nonneg n (by decide)
  have hbelow : n % dayLength < dayLength := Int.emod_lt_of_pos n (by decide)
  rw [dayLength] at hpositive hbelow
  exact ⟨Date.onCalendar_ofDays _, Time.ofNanoseconds_valid (by rw [dayLength]; omega)⟩

/-- The date and time cut down to whole microseconds. -/
def truncated (t : DateTime) : DateTime := { t with time := t.time.truncated }

/-- Cutting the time of day cuts the nanoseconds since 1970 down, before 1970 as well. -/
theorem toNanoseconds_truncated (t : DateTime) :
    t.truncated.toNanoseconds = t.toNanoseconds / 1000 * 1000 := by
  have htime := t.time.toNanoseconds_truncated
  simp only [truncated, toNanoseconds, dayLength]
  omega

end DateTime

/-- The instant cut down to whole microseconds. -/
def Instant.truncated (t : Instant) : Instant := ⟨t.nanoseconds / 1000 * 1000⟩

end TypedSql.Calendar
