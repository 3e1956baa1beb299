import Mathlib
import TypedSql.Proofs.Calendar.Days
import TypedSql.Proofs.Catalog.Coverage
import TypedSql.Proofs.Literal.Rerendering
import TypedSql.Proofs.Text.Fields
import TypedSql.Proofs.Wire.Tracking

/-!
# Temporal literals are read back

A reader of the literals of dates, times of day, civil times and instants, field by field: the year
with its sign, the other fields in their fixed widths, an instant as the civil time less its offset.
What is read is the value cut down to microseconds, so that values which differ there have
different literals. An instant at an offset is read as an instant, off by the seconds of the offset,
which are not written.
-/

namespace TypedSql

open Calendar Numeral Reader Result

/-! ## Readers -/

namespace Reader

variable {α : Type}

/-- A year with its sign, up to the minus sign behind it. -/
def year : Reader Int := fun s =>
  if s.head? = some '-' then
    ((digitsUpTo '-').run s.tail).map fun field => (-(field.1 : Int), field.2)
  else ((digitsUpTo '-').run s).map fun field => ((field.1 : Int), field.2)

/-- A date. -/
def date : Reader Date := do
  let year ← year
  let month ← digits 2
  mark '-'
  let day ← digits 2
  return ⟨year, month, day⟩

/-- A time of day in microseconds. -/
def time : Reader Time := do
  let hour ← digits 2
  mark ':'
  let minute ← digits 2
  mark ':'
  let second ← digits 2
  mark '.'
  let microsecond ← digits 6
  return ⟨hour, minute, second, microsecond * 1000⟩

/-- A date and a time of day. -/
def dateTime : Reader DateTime := do
  let date ← date
  mark ' '
  let time ← time
  return ⟨date, time⟩

/-- A plus or a minus sign. -/
def sign : Reader Bool
  | '+' :: rest => some (false, rest)
  | '-' :: rest => some (true, rest)
  | _ => none

/-- An offset in hours and minutes, as seconds. -/
def offset : Reader Int := do
  let negative ← sign
  let hours ← digits 2
  mark ':'
  let minutes ← digits 2
  let seconds : Int := hours * 3600 + minutes * 60
  return if negative then -seconds else seconds

/-- The instant of a civil time at an offset. -/
def instant : Reader Instant := do
  let civil ← dateTime
  let offset ← offset
  return ⟨civil.toNanoseconds - offset * 1000000000⟩

/-- Quoted text behind a keyword. -/
def keyworded (keyword : String) (body : Reader α) : Reader α := do
  word (keyword.toList ++ [' ', '\''])
  let a ← body
  mark '\''
  return a

/-- A literal of a temporal store type. -/
def temporal : Reader Value :=
  Value.date <$> keyworded "DATE" date <|> Value.time <$> keyworded "TIME" time <|>
    Value.dateTime <$> keyworded "DATETIME" dateTime <|>
    Value.timestamp <$> keyworded "TIMESTAMP" instant

end Reader

/-- The date or time that a literal denotes. -/
def Literal.denoted? (text : String) : Option Value := temporal.whole? text.toList

/-- The value in microseconds, cut down to them. -/
def Value.truncated : Value → Value
  | .time t => .time t.truncated
  | .dateTime t => .dateTime t.truncated
  | .timestamp t => .timestamp t.truncated
  | v => v

example : Literal.denoted? "TIMESTAMP '-001-12-31 23:59:59.999999-00:30'" =
    some (.timestamp ⟨-62167217400000001000⟩) := by cbv

/-! ## Fields -/

namespace Literal

/-- The head of a padded number is no sign. -/
theorem head?_padded_ne {width n : Nat} {rest : List Char} {c : Char} (hc : c.isDigit = false) :
    (padded width n ++ rest).head? ≠ some c := by
  rw [List.head?_append_of_ne_nil _ padded_ne_nil]
  exact (digits_padded width n).head?_ne hc

theorem reads_year (y : Int) : Reads year (yearText y ++ ['-']) y := by
  intro rest
  have hrun (s : List Char) : year.run s = if s.head? = some '-'
      then ((digitsUpTo '-').run s.tail).map fun field => (-(field.1 : Int), field.2)
      else ((digitsUpTo '-').run s).map fun field => ((field.1 : Int), field.2) := rfl
  have hfield (width : Nat) : (digitsUpTo '-').run (padded width y.natAbs ++ (['-'] ++ rest)) =
      some (y.natAbs, rest) := by
    rw [← List.append_assoc]
    exact reads_digitsUpTo width y.natAbs rfl rest
  rw [hrun, yearText, List.append_assoc]
  split
  next hnegative =>
    rw [List.cons_append, List.head?_cons, if_pos rfl, List.tail_cons, hfield, Option.map_some]
    congr 2
    omega
  next hnegative =>
    rw [if_neg (head?_padded_ne rfl), hfield, Option.map_some]
    congr 2
    omega

theorem reads_date {d : Date} (h : d.OnCalendar) : Reads date (dateText d) d := by
  obtain ⟨-, hmonth, -, hday⟩ := h
  have hlong : daysIn d.year d.month ≤ 31 := by
    unfold daysIn
    split <;> (try split) <;> omega
  have htext : dateText d = (yearText d.year ++ ['-']) ++
      (padded 2 d.month ++ (['-'] ++ (padded 2 d.day ++ []))) := by
    simp [dateText]
  rw [htext]
  exact (reads_year d.year).bind <| (reads_digits (by decide) (by omega)).bind <|
    (reads_mark '-').bind <| (reads_digits (by decide) (by omega)).bind (reads_pure d)

theorem reads_time {t : Time} (h : t.Valid) : Reads time (timeText t) t.truncated := by
  obtain ⟨hhour, hminute, hsecond, hnanosecond⟩ := h
  have htext : timeText t = padded 2 t.hour ++ ([':'] ++ (padded 2 t.minute ++ ([':'] ++
      (padded 2 t.second ++ (['.'] ++ (padded 6 (t.nanosecond / 1000) ++ [])))))) := by
    simp [timeText]
  rw [htext]
  exact (reads_digits (by decide) (by omega)).bind <| (reads_mark ':').bind <|
    (reads_digits (by decide) (by omega)).bind <| (reads_mark ':').bind <|
    (reads_digits (by decide) (by omega)).bind <| (reads_mark '.').bind <|
    (reads_digits (by decide) (by omega)).bind (reads_pure t.truncated)

theorem reads_dateTime {t : DateTime} (h : t.Valid) :
    Reads dateTime (dateTimeText t) t.truncated := by
  have htext : dateTimeText t = dateText t.date ++ ([' '] ++ (timeText t.time ++ [])) := by
    simp [dateTimeText]
  rw [htext]
  exact (reads_date h.1).bind <| (reads_mark ' ').bind <| (reads_time h.2).bind
    (reads_pure t.truncated)

/-- An offset is read without its seconds. -/
theorem reads_offset {seconds : Int} (h : seconds.natAbs < 360000) :
    Reads offset (offsetText seconds) (seconds.tdiv 60 * 60) := by
  have hsign : Reads sign [if seconds < 0 then '-' else '+'] (decide (seconds < 0)) := by
    intro rest
    split
    next hnegative =>
      rw [decide_eq_true hnegative]
      rfl
    next hnegative =>
      rw [decide_eq_false hnegative]
      rfl
  have htext : offsetText seconds = [if seconds < 0 then '-' else '+'] ++
      (padded 2 (seconds.natAbs / 3600) ++ ([':'] ++
        (padded 2 (seconds.natAbs % 3600 / 60) ++ []))) := by
    simp [offsetText]
  have hvalue : (if decide (seconds < 0) = true
      then -(((seconds.natAbs / 3600 : Nat) : Int) * 3600 + (seconds.natAbs % 3600 / 60 : Nat) * 60)
      else ((seconds.natAbs / 3600 : Nat) : Int) * 3600 + (seconds.natAbs % 3600 / 60 : Nat) * 60) =
      seconds.tdiv 60 * 60 := by
    simp only [Int.tdiv_eq_ediv, show (60 : Int).sign = 1 from rfl, decide_eq_true_eq]
    split <;> split <;> omega
  rw [htext, ← hvalue]
  exact hsign.bind <| (reads_digits (by decide) (by omega)).bind <| (reads_mark ':').bind <|
    (reads_digits (by decide) (by omega)).bind (reads_pure _)

/-! ## Instants -/

/-- A UTC instant is written at an offset of zero. -/
theorem zonedText_utc (t : Instant) : zonedText ⟨t, 0⟩ = instantText t := by
  have hoffset : offsetText 0 = "+00:00".toList := by cbv
  rw [zonedText, instantText, Zoned.toDateTime, Instant.toDateTime, Int.zero_mul, Int.add_zero,
    hoffset]

/-- An instant at an offset is read in microseconds, and later by the seconds of the offset. -/
theorem reads_zoned {z : Zoned} (h : z.offset.natAbs < 360000) : Reads instant (zonedText z)
    ⟨z.instant.truncated.nanoseconds + z.offset.tmod 60 * 1000000000⟩ := by
  have hoffset := Int.tdiv_mul_add_tmod z.offset 60
  have hvalue : (⟨z.instant.truncated.nanoseconds + z.offset.tmod 60 * 1000000000⟩ : Instant) =
      ⟨z.toDateTime.truncated.toNanoseconds - z.offset.tdiv 60 * 60 * 1000000000⟩ := by
    rw [Zoned.toDateTime, DateTime.toNanoseconds_truncated, DateTime.toNanoseconds_ofNanoseconds,
      Instant.truncated, Instant.mk.injEq]
    dsimp only
    omega
  have htext : zonedText z = dateTimeText z.toDateTime ++ (offsetText z.offset ++ []) := by
    simp [zonedText]
  rw [htext, hvalue]
  exact (reads_dateTime (DateTime.ofNanoseconds_valid _)).bind <| (reads_offset h).bind
    (reads_pure _)

theorem reads_instant (t : Instant) : Reads instant (instantText t) t.truncated := by
  have hread := reads_zoned (z := ⟨t, 0⟩) (Nat.zero_lt_succ _)
  rw [zonedText_utc] at hread
  simpa using hread

theorem reads_keyworded {α : Type} {body : Reader α} {text : List Char} {a : α} (keyword : String)
    (h : Reads body text a) :
    Reads (Reader.keyworded keyword body) (keyworded keyword text) a := by
  have htext : keyworded keyword text =
      (keyword.toList ++ [' ', '\'']) ++ (text ++ (['\''] ++ [])) := by
    simp [keyworded]
  rw [htext]
  exact (reads_word _).bind <| h.bind <| (reads_mark '\'').bind (reads_pure a)

/-- Quoted text behind one keyword is not read behind another. -/
theorem run_keyworded_of_not_prefix {α β : Type} {keyword keyword' : String} {body : Reader α}
    {f : α → β} {text : List Char}
    (h : ∀ rest, ¬keyword.toList ++ [' ', '\''] <+: keyworded keyword' text ++ rest)
    (rest : List Char) :
    (f <$> Reader.keyworded keyword body).run (keyworded keyword' text ++ rest) = none := by
  rw [StateT.run_map, Reader.keyworded, StateT.run_bind, run_word_of_not_prefix (h rest)]
  rfl

/-! ## Literals -/

/-- The values that temporal store types are for: dates and times that exist, and all instants. -/
inductive Temporal : ScalarKind → Value → Prop
  | date {d : Date} (h : d.Valid) : Temporal .date (.date d)
  | time {t : Time} (h : t.Valid) : Temporal .time (.time t)
  | dateTime {t : DateTime} (hdate : t.date.Valid) (htime : t.time.Valid) :
      Temporal .dateTime (.dateTime t)
  | timestamp (t : Instant) : Temporal .timestamp (.timestamp t)

/-- The kinds of dates and times. -/
def isTemporal : ScalarKind → Bool
  | .date | .time | .dateTime | .timestamp => true
  | _ => false

variable {m : Mapping} {kind : ScalarKind} {v w : Value}

/-- The literals of dates and times are told apart by their keywords. -/
theorem reads_temporal {text : List Char} :
    (∀ d, Reads date text d → Reads temporal (keyworded "DATE" text) (.date d)) ∧
      (∀ t, Reads time text t → Reads temporal (keyworded "TIME" text) (.time t)) ∧
      (∀ t, Reads dateTime text t → Reads temporal (keyworded "DATETIME" text) (.dateTime t)) ∧
      ∀ t, Reads instant text t → Reads temporal (keyworded "TIMESTAMP" text) (.timestamp t) := by
  refine ⟨fun d h => ?_, fun t h => ?_, fun t h => ?_, fun t h => ?_⟩
  · exact ((reads_keyworded "DATE" h).map _).orElse_left _
  · refine (((reads_keyworded "TIME" h).map _).orElse_left _).orElse_right ?_
    exact run_keyworded_of_not_prefix (by simp [keyworded])
  · refine ((((reads_keyworded "DATETIME" h).map _).orElse_left _).orElse_right ?_).orElse_right ?_
    all_goals exact run_keyworded_of_not_prefix (by simp [keyworded])
  · refine ((((reads_keyworded "TIMESTAMP" h).map _).orElse_right ?_).orElse_right ?_).orElse_right
      ?_
    all_goals exact run_keyworded_of_not_prefix (by simp [keyworded])

/-- A temporal value is written so that it is read in microseconds. -/
theorem exists_scalarLiteral (h : Temporal kind v) :
    ∃ text, scalarLiteral m kind v = .ok text ∧ Reads temporal text v.truncated := by
  cases h with
  | date h => exact ⟨_, rfl, reads_temporal.1 _ (reads_date h.onCalendar)⟩
  | time h => exact ⟨_, rfl, reads_temporal.2.1 _ (reads_time h)⟩
  | dateTime hdate htime =>
    exact ⟨_, rfl, reads_temporal.2.2.1 _ (reads_dateTime ⟨hdate.onCalendar, htime⟩)⟩
  | timestamp t => exact ⟨_, rfl, reads_temporal.2.2.2 _ (reads_instant t)⟩

/-- What a converter stores is no temporal value. -/
theorem scalarLiteral_toStored_ne {converter : Converter} (htemporal : isTemporal kind = true)
    (h : converter.toStored v = .ok w) (text : List Char) : scalarLiteral m kind w ≠ .ok text := by
  rcases kind_of_toStored h with ⟨n, rfl⟩ | ⟨s, rfl⟩ | ⟨d, rfl⟩ | ⟨j, rfl⟩ | ⟨items, rfl⟩
  all_goals cases kind <;> simp [isTemporal, scalarLiteral] at htemporal ⊢

/-- A scalar that has a temporal literal is rendered, unless the mapping converts its values. -/
theorem render_temporal_iff (hkind : m.kind = .scalar kind) (htemporal : isTemporal kind = true)
    {body : List Char} (hv : scalarLiteral m kind v = .ok body) {text : String} :
    render m v = .ok text ↔ m.converter = none ∧ text.toList = body := by
  have htext : render m v = .ok text ↔ literal m v = .ok text.toList := by
    rw [render, map_eq_ok]
    constructor
    · rintro ⟨body, hbody, rfl⟩
      rwa [String.toList_ofList]
    · intro h
      exact ⟨_, h, String.ofList_toList⟩
  obtain ⟨hnull, hprepare⟩ := prepare_of_scalarLiteral hv
  rw [htext, literal_scalar hkind, hprepare, Mapping.toStored]
  cases hconverter : m.converter with
  | none => simp [Except.map, hv, eq_comm]
  | some converter =>
    simp only [hnull, Bool.false_eq_true, if_false, reduceCtorEq, false_and, iff_false, not_or]
    refine ⟨?_, ?_⟩
    · rintro ⟨h, -⟩
      obtain ⟨_, -, hnone⟩ := map_eq_ok.mp h
      cases hnone
    · rintro ⟨w, h, hw⟩
      obtain ⟨_, hstored, hsome⟩ := map_eq_ok.mp h
      cases hsome
      exact scalarLiteral_toStored_ne htemporal hstored _ hw

/-- A scalar that has a temporal literal is rendered by a mapping that converts nothing, such as
every mapping of its kind that a catalog finds. -/
theorem succeeds_render_iff (hkind : m.kind = .scalar kind) (htemporal : isTemporal kind = true)
    {body : List Char} (hv : scalarLiteral m kind v = .ok body) :
    (Succeeds (render m v) ↔ m.converter = none) ∧
      ∀ c type store, Catalog.resolve c type store = some m → Succeeds (render m v) := by
  have hiff : Succeeds (render m v) ↔ m.converter = none := by
    constructor
    · rintro ⟨text, h⟩
      exact ((render_temporal_iff hkind htemporal hv).mp h).1
    · intro h
      exact ⟨_, (render_temporal_iff hkind htemporal hv).mpr ⟨h, String.toList_ofList⟩⟩
  refine ⟨hiff, fun c type store hm => hiff.mpr ?_⟩
  refine Catalog.unconverted_of_resolves (Catalog.resolves_of_resolveKey hm) hkind ?_
  cases kind <;> first | rfl | cases htemporal

theorem Temporal.isTemporal (h : Temporal kind v) : isTemporal kind = true := by
  cases h <;> rfl

/-- A rendered temporal value denotes the value in microseconds. -/
theorem denoted?_of_render (hkind : m.kind = .scalar kind) (hv : Temporal kind v) {text : String}
    (h : render m v = .ok text) : denoted? text = some v.truncated := by
  obtain ⟨body, hbody, hread⟩ := exists_scalarLiteral (m := m) hv
  obtain ⟨-, htext⟩ := (render_temporal_iff hkind hv.isTemporal hbody).mp h
  rw [denoted?, htext]
  exact hread.whole?

/-- Dates, times of day, civil times and instants are rendered, and the literal denotes the value
cut down to microseconds. So values that differ there are rendered differently, by whichever
mappings. -/
theorem denoted_render_temporal (hkind : m.kind = .scalar kind) (hv : Temporal kind v) :
    (Succeeds (render m v) ↔ m.converter = none) ∧
      (∀ c type store, Catalog.resolve c type store = some m → Succeeds (render m v)) ∧
      (∀ text, render m v = .ok text → denoted? text = some v.truncated) ∧
      ∀ m' kind' w text, m'.kind = .scalar kind' → Temporal kind' w →
        render m v = .ok text → render m' w = .ok text → v.truncated = w.truncated := by
  obtain ⟨body, hbody, -⟩ := exists_scalarLiteral (m := m) hv
  obtain ⟨hiff, hresolve⟩ := succeeds_render_iff hkind hv.isTemporal hbody
  refine ⟨hiff, hresolve, fun text h => denoted?_of_render hkind hv h, ?_⟩
  intro m' kind' w text hkind' hw h h'
  exact Option.some.inj
    ((denoted?_of_render hkind hv h).symm.trans (denoted?_of_render hkind' hw h'))

/-- The nanoseconds of a civil time are cut off in the earliest years too. -/
theorem denoted_render_temporal_earliest :
    Builtin.dateTime.mapping.kind = .scalar .dateTime ∧
      Temporal .dateTime (.dateTime ⟨⟨-9999, 2, 28⟩, ⟨23, 59, 59, 999999999⟩⟩) ∧
      render Builtin.dateTime.mapping (.dateTime ⟨⟨-9999, 2, 28⟩, ⟨23, 59, 59, 999999999⟩⟩) =
        .ok "DATETIME '-9999-02-28 23:59:59.999999'" ∧
      denoted? "DATETIME '-9999-02-28 23:59:59.999999'" =
        some (.dateTime ⟨⟨-9999, 2, 28⟩, ⟨23, 59, 59, 999999000⟩⟩) := by
  have hv : Temporal .dateTime (.dateTime ⟨⟨-9999, 2, 28⟩, ⟨23, 59, 59, 999999999⟩⟩) :=
    .dateTime (by decide) (by decide)
  have hrender : render Builtin.dateTime.mapping
      (.dateTime ⟨⟨-9999, 2, 28⟩, ⟨23, 59, 59, 999999999⟩⟩) =
        .ok "DATETIME '-9999-02-28 23:59:59.999999'" := by rfl
  obtain ⟨-, -, hdenoted, -⟩ := denoted_render_temporal (m := Builtin.dateTime.mapping) rfl hv
  exact ⟨rfl, hv, hrender, hdenoted _ hrender⟩

/-! ## Instants at an offset -/

/-- An instant at an offset is rendered and sent as the instant. The literal denotes the instant in
microseconds, later by the seconds of the offset, and so the instant itself just when the offset
has none. Offsets are less than 26 hours. -/
theorem denoted_render_zoned (hkind : m.kind = .scalar .timestamp) {z : Zoned}
    (hoffset : z.offset.natAbs < 93600) :
    (Succeeds (render m (.zoned z)) ↔ m.converter = none) ∧
      (∀ c type store, Catalog.resolve c type store = some m → Succeeds (render m (.zoned z))) ∧
      ∀ text, render m (.zoned z) = .ok text →
        Wire.value m (.zoned z) = .ok (.timestamp z.instant) ∧
        denoted? text = some (.timestamp
          ⟨z.instant.truncated.nanoseconds + z.offset.tmod 60 * 1000000000⟩) ∧
        (denoted? text = some (.timestamp z.instant.truncated) ↔ 60 ∣ z.offset) := by
  have hbody : scalarLiteral m .timestamp (.zoned z) = .ok (keyworded "TIMESTAMP" (zonedText z)) :=
    rfl
  obtain ⟨hiff, hresolve⟩ := succeeds_render_iff hkind rfl hbody
  refine ⟨hiff, hresolve, fun text h => ?_⟩
  obtain ⟨hconverter, htext⟩ := (render_temporal_iff hkind rfl hbody).mp h
  have hdenoted : denoted? text = some (.timestamp
      ⟨z.instant.truncated.nanoseconds + z.offset.tmod 60 * 1000000000⟩) := by
    rw [denoted?, htext]
    exact (reads_temporal.2.2.2 _ (reads_zoned (by omega))).whole?
  have hprepare : m.prepare (.zoned z) = .ok (some (.zoned z)) := by
    simp only [Mapping.prepare, Mapping.toStored, hconverter]
    rfl
  refine ⟨Wire.value_scalar hkind hprepare, hdenoted, ?_⟩
  rw [hdenoted, Int.dvd_iff_tmod_eq_zero]
  constructor
  · intro hsame
    have hnanoseconds :=
      congrArg Instant.nanoseconds (Value.timestamp.inj (Option.some.inj hsame))
    dsimp only at hnanoseconds
    omega
  · intro hzero
    rw [hzero, Int.zero_mul, Int.add_zero]

/-- An offset in whole minutes is exact, half hours and dates before 1970 included. -/
theorem denoted_render_zoned_halfHour :
    Builtin.timestamp.mapping.kind = .scalar .timestamp ∧ (-12600 : Int).natAbs < 93600 ∧
      render Builtin.timestamp.mapping (.zoned ⟨⟨-1⟩, -12600⟩) =
        .ok "TIMESTAMP '1969-12-31 20:29:59.999999-03:30'" ∧
      Wire.value Builtin.timestamp.mapping (.zoned ⟨⟨-1⟩, -12600⟩) = .ok (.timestamp ⟨-1⟩) ∧
      denoted? "TIMESTAMP '1969-12-31 20:29:59.999999-03:30'" = some (.timestamp ⟨-1000⟩) := by
  have hrender : render Builtin.timestamp.mapping (.zoned ⟨⟨-1⟩, -12600⟩) =
      .ok "TIMESTAMP '1969-12-31 20:29:59.999999-03:30'" := by rfl
  obtain ⟨-, -, hall⟩ := denoted_render_zoned (m := Builtin.timestamp.mapping) rfl
    (z := ⟨⟨-1⟩, -12600⟩) (by decide)
  obtain ⟨hvalue, -, hdenoted⟩ := hall _ hrender
  exact ⟨rfl, by decide, hrender, hvalue, hdenoted.mpr (by decide)⟩

/-- The seconds of an offset are lost: local mean time of New York, 4 hours, 56 minutes and 2
seconds behind UTC, moves the start of 1970 by 2 seconds. -/
theorem denoted_render_zoned_ne :
    (default : Catalog).resolveType (.scalar .zoned) =
        some (Builtin.timestamp.mapping.withType (.scalar .zoned)) ∧
      render (Builtin.timestamp.mapping.withType (.scalar .zoned)) (.zoned ⟨⟨0⟩, -17762⟩) =
        .ok "TIMESTAMP '1969-12-31 19:03:58.000000-04:56'" ∧
      Wire.value (Builtin.timestamp.mapping.withType (.scalar .zoned)) (.zoned ⟨⟨0⟩, -17762⟩) =
        .ok (.timestamp ⟨0⟩) ∧
      denoted? "TIMESTAMP '1969-12-31 19:03:58.000000-04:56'" =
        some (.timestamp ⟨-2000000000⟩) := by
  refine ⟨?_, by rfl, by rfl, by cbv⟩
  rw [Catalog.resolveType, Catalog.resolve, Option.map_none, Key.of, Catalog.resolveKey_scalarType]
  rfl

end Literal

end TypedSql
