import Mathlib.Data.List.Forall2
import TypedSql.Mapping.Comparer

/-!
# Equal values

What it takes for two values to be equal under a comparer, one rule for each kind of value. Values
of the same variant agree in their content up to the spelling of numbers and the offset of zoned
instants, lists agree item by item, and records member by member or entry by entry.
-/

namespace TypedSql

/-! ## Floats -/

namespace Numeral

namespace Binary64

variable {x y : Binary64}

/-- A zero is a number. -/
theorem isNaN_of_isZero (h : x.isZero = true) : x.isNaN = false := by
  unfold isZero at h
  split at h
  next hparts => simp [isNaN, hparts]
  next => cases h

/-- NaN is not finite. -/
theorem not_isFinite_of_isNaN (h : x.isNaN = true) : ¬x.isFinite = true := by
  rw [isFinite, eq_of_beq h]
  exact Bool.false_ne_true

/-- Floats that are equal are both finite or both infinite. -/
theorem isFinite_of_ieeeEq (h : x.ieeeEq y = true) : x.isFinite = y.isFinite := by
  have hfinite {z : Binary64} (hz : z.isZero = true) : z.isFinite = true := by
    unfold isZero at hz
    split at hz
    next hparts => rw [isFinite, hparts]
    next => cases hz
  simp only [ieeeEq, Bool.and_eq_true, Bool.or_eq_true, beq_iff_eq] at h
  obtain ⟨-, rfl | ⟨hx, hy⟩⟩ := h
  · rfl
  · rw [hfinite hx, hfinite hy]

/-- Floats that are equal have the same canonical bits. -/
theorem canonicalBits_of_ieeeEq (h : x.ieeeEq y = true) : x.canonicalBits = y.canonicalBits := by
  simp only [ieeeEq, Bool.and_eq_true, Bool.not_eq_true', Bool.or_eq_true, beq_iff_eq] at h
  obtain ⟨⟨hx, hy⟩, rfl | ⟨hzero, hzero'⟩⟩ := h
  · rfl
  · simp [canonicalBits, hx, hy, hzero, hzero']

/-- The canonical bits of NaN belong to NaN alone. -/
theorem canonicalBits_eq_nan : x.canonicalBits = nan.bits ↔ x.isNaN = true := by
  unfold canonicalBits
  split
  next hx => exact iff_of_true rfl hx
  next hx =>
    refine iff_of_false (fun h => ?_) hx
    split at h
    next => exact absurd h (by decide)
    next =>
      obtain ⟨bits⟩ := x
      cases h
      exact hx (by decide)

/-- The canonical bits of zero belong to the zeros alone. -/
theorem canonicalBits_eq_zero : x.canonicalBits = 0 ↔ x.isZero = true := by
  unfold canonicalBits
  split
  next hx => exact iff_of_false (by decide) fun h => by simp [isNaN_of_isZero h] at hx
  next =>
    split
    next hx => exact iff_of_true rfl hx
    next hx =>
      refine iff_of_false (fun h => ?_) hx
      obtain ⟨bits⟩ := x
      cases h
      exact hx (by decide)

/-- Floats with the same canonical bits are both NaN or equal. -/
theorem ieeeEq_of_canonicalBits (h : x.canonicalBits = y.canonicalBits) :
    (x.isNaN = true ∧ y.isNaN = true) ∨ x.ieeeEq y = true := by
  have hnan : x.isNaN = true ↔ y.isNaN = true := by
    rw [← canonicalBits_eq_nan, h, canonicalBits_eq_nan]
  have hzero : x.isZero = true ↔ y.isZero = true := by
    rw [← canonicalBits_eq_zero, h, canonicalBits_eq_zero]
  by_cases hx : x.isNaN = true
  · exact Or.inl ⟨hx, hnan.mp hx⟩
  · right
    have hy := mt hnan.mpr hx
    by_cases hx' : x.isZero = true
    · simp [ieeeEq, hx, hy, hx', hzero.mp hx']
    · have hy' := mt hzero.mpr hx'
      have hbits : x.bits = y.bits := by simpa [canonicalBits, hx, hy, hx', hy'] using h
      have heq : x = y := by
        obtain ⟨_⟩ := x
        exact congrArg mk hbits
      simp [ieeeEq, hy, heq]

end Binary64

/-- A 32-bit zero is a zero in 64 bits. -/
theorem Binary32.isZero_widen {x : Binary32} (h : x.isZero = true) : x.widen.isZero = true := by
  unfold isZero at h
  split at h
  next negative significand power hparts =>
    obtain rfl : significand = 0 := eq_of_beq h
    have hnearest (den : Nat) : FloatFormat.wide.nearest 0 den = 0 := rfl
    simp only [widen, hparts, Nat.zero_mul, Binary64.ofRatio, hnearest]
    split <;> cases negative <;> decide
  next => cases h

/-- 32-bit floats that are equal have the same canonical bits in 64 bits. -/
theorem Binary32.canonicalBits_of_ieeeEq {x y : Binary32} (h : x.ieeeEq y = true) :
    x.widen.canonicalBits = y.widen.canonicalBits := by
  simp only [ieeeEq, Bool.and_eq_true, Bool.not_eq_true', Bool.or_eq_true, beq_iff_eq] at h
  obtain ⟨-, rfl | ⟨hx, hy⟩⟩ := h
  · rfl
  · rw [Binary64.canonicalBits_eq_zero.mpr (isZero_widen hx),
      Binary64.canonicalBits_eq_zero.mpr (isZero_widen hy)]

end Numeral

/-! ## Parts of values -/

/-- Entries have the same names in the same order when they have them one by one. -/
theorem Entries.names_eq_iff {α β : Type} {r : Entries α} {s : Entries β} :
    r.names = s.names ↔ List.Forall₂ (fun e f => e.1 = f.1) r.toList s.toList := by
  rw [names, names, ← List.forall₂_eq_eq_eq, List.forall₂_map_left_iff,
    List.forall₂_map_right_iff]

namespace Value

/-- The values directly inside a value. -/
def parts : Value → List Value
  | .list items | .multi _ items => items
  | .record r => r.toList.map Prod.snd
  | _ => []

/-- What is inside a value is smaller. -/
theorem sizeOf_part_lt {v w : Value} (h : w ∈ v.parts) : sizeOf w < sizeOf v := by
  cases v with
  | list items =>
    have := List.sizeOf_lt_of_mem (show w ∈ items from h)
    simp only [list.sizeOf_spec]
    omega
  | multi lengths items =>
    have := List.sizeOf_lt_of_mem (show w ∈ items from h)
    simp only [multi.sizeOf_spec]
    omega
  | record r =>
    obtain ⟨entries⟩ := r
    obtain ⟨entry, hentry, rfl⟩ := List.mem_map.mp h
    have := List.sizeOf_lt_of_mem (show entry ∈ entries from hentry)
    obtain ⟨name, value⟩ := entry
    simp only [record.sizeOf_spec, Entries.mk.sizeOf_spec, Prod.mk.sizeOf_spec] at this ⊢
    omega
  | _ => exact absurd h List.not_mem_nil

/-- Induction over values from what is directly inside them. -/
theorem induct {motive : Value → Prop} (step : ∀ v, (∀ w ∈ v.parts, motive w) → motive v)
    (v : Value) : motive v :=
  step v fun w _ => induct step w
termination_by sizeOf v
decreasing_by exact sizeOf_part_lt ‹_›

/-- Values that are equal to themselves only. -/
def isAtom : Value → Bool
  | .f32 _ | .f64 _ | .decimal _ | .bigDecimal _ | .zoned _ | .json _ => false
  | .list _ | .multi .. | .record _ => false
  | _ => true

/-- Every record at any depth has distinct names. -/
inductive WellFormed : Value → Prop
  | intro {v : Value} (hnames : ∀ r, v = .record r → r.Distinct)
      (hparts : ∀ w ∈ v.parts, WellFormed w) : WellFormed v

/-- Scalars are well formed. -/
theorem wellFormed_scalar {v : Value} (hrecord : v.record? = none) (hparts : v.parts = []) :
    v.WellFormed := by
  refine .intro (fun r hr => ?_) fun w hw => ?_
  · rw [hr] at hrecord
    cases hrecord
  · rw [hparts] at hw
    exact absurd hw List.not_mem_nil

/-- Lists of well-formed items are well formed. -/
theorem wellFormed_list {items : List Value} (h : ∀ item ∈ items, item.WellFormed) :
    (list items).WellFormed :=
  .intro (fun _ hr => nomatch hr) h

/-- Records with distinct names and well-formed values are well formed. -/
theorem wellFormed_record {r : Record} (hr : r.Distinct)
    (h : ∀ w ∈ (record r).parts, w.WellFormed) : (record r).WellFormed := by
  refine .intro (fun s hs => ?_) h
  cases hs
  exact hr

/-- The records of a well-formed value have distinct names. -/
theorem WellFormed.distinct {r : Record} (h : WellFormed (.record r)) : r.Distinct := by
  obtain ⟨hnames, -⟩ := h
  exact hnames r rfl

/-- What is inside a well-formed value is well formed. -/
theorem WellFormed.of_mem {v w : Value} (h : WellFormed v) (hw : w ∈ v.parts) : WellFormed w := by
  obtain ⟨-, hparts⟩ := h
  exact hparts w hw

/-! Values that are the same -/

/-- `Matches a b`: one way for two values to be the same. -/
inductive Matches : Value → Value → Prop
  | atom {v : Value} (h : v.isAtom = true) : Matches v v
  | f32 {x y : Numeral.Binary32} (h : x.ieeeEq y = true) : Matches (.f32 x) (.f32 y)
  | f64 {x y : Numeral.Binary64} (h : x.ieeeEq y = true) : Matches (.f64 x) (.f64 y)
  | decimal {d e : Numeral.Scaled} (h : d.sameNumber e = true) : Matches (.decimal d) (.decimal e)
  | bigDecimal {d e : Numeral.Scaled} (h : d.sameNumber e = true) :
      Matches (.bigDecimal d) (.bigDecimal e)
  | zoned {z w : Calendar.Zoned} (h : z.instant = w.instant) : Matches (.zoned z) (.zoned w)
  | json {j k : Json} (h : j.same k = true) : Matches (.json j) (.json k)
  | list {as bs : List Value} (h : List.Forall₂ (fun a b => a.same b = true) as bs) :
      Matches (.list as) (.list bs)
  | multi {lengths : List Nat} {as bs : List Value}
      (h : List.Forall₂ (fun a b => a.same b = true) as bs) :
      Matches (.multi lengths as) (.multi lengths bs)
  | record {r s : Record} (hsize : r.size = s.size)
      (h : ∀ entry ∈ r.toList, ∃ b, s.get? entry.1 = some b ∧ entry.2.same b = true) :
      Matches (.record r) (.record s)

/-- Items are the same one by one. -/
theorem sameItems_iff {as bs : List Value} :
    sameItems as bs = true ↔ List.Forall₂ (fun a b => a.same b = true) as bs := by
  induction as generalizing bs with
  | nil => cases bs <;> simp [sameItems]
  | cons a as ih => cases bs <;> simp [sameItems, ih]

/-- Entries are the same as those of a record that has one for each which is the same. -/
theorem sameEntries_iff {entries : List (String × Value)} {s : Record} :
    sameEntries entries s = true ↔
      ∀ entry ∈ entries, ∃ b, s.get? entry.1 = some b ∧ entry.2.same b = true := by
  induction entries with
  | nil => simp [sameEntries]
  | cons first rest ih =>
    obtain ⟨name, a⟩ := first
    rw [sameEntries, Bool.and_eq_true, ih, List.forall_mem_cons]
    cases s.get? name <;> simp

/-- Values are the same in one of the ways. -/
theorem same_iff {a b : Value} : a.same b = true ↔ Matches a b := by
  constructor
  · intro h
    unfold same at h
    split at h
    case h_11 => exact .f32 h
    case h_12 => exact .f64 h
    case h_13 => exact .decimal h
    case h_14 => exact .bigDecimal h
    case h_23 => exact .zoned (eq_of_beq h)
    case h_24 => exact .json h
    case h_27 => exact .list (sameItems_iff.mp h)
    case h_28 =>
      obtain ⟨hlengths, hitems⟩ := Bool.and_eq_true_iff.mp h
      obtain rfl := eq_of_beq hlengths
      exact .multi (sameItems_iff.mp hitems)
    case h_29 =>
      obtain ⟨hsize, hentries⟩ := Bool.and_eq_true_iff.mp h
      exact .record (eq_of_beq hsize) (sameEntries_iff.mp hentries)
    case h_30 => cases h
    -- values of the other variants are atoms
    all_goals first
      | exact .atom rfl
      | obtain rfl := eq_of_beq h
        exact .atom rfl
  · intro h
    cases h with
    | atom h => cases a <;> first | rfl | exact beq_self_eq_true _ | cases h
    | f32 h | f64 h | decimal h | bigDecimal h | json h => exact h
    | zoned h => exact beq_iff_eq.mpr h
    | list h => exact sameItems_iff.mpr h
    | multi h => rw [same, sameItems_iff.mpr h, beq_self_eq_true, Bool.and_self]
    | @record r s hsize h =>
      obtain ⟨entries⟩ := r
      rw [same, Bool.and_eq_true]
      exact ⟨beq_iff_eq.mpr hsize, sameEntries_iff.mpr h⟩

/-- What is found in a record under a name in any case is one of its values. -/
theorem mem_parts_of_getIgnoringCase? {r : Record} {name : String} {v : Value}
    (h : r.getIgnoringCase? name = some v) : v ∈ (record r).parts := by
  have hfound {p : String × Value → Bool}
      (h : (r.toList.find? p).map Prod.snd = some v) : v ∈ (record r).parts := by
    obtain ⟨entry, hfind, rfl⟩ := Option.map_eq_some_iff.mp h
    exact List.mem_map_of_mem (List.mem_of_find?_eq_some hfind)
  unfold Entries.getIgnoringCase? at h
  split at h
  next hget =>
    cases h
    exact hfound hget
  next => exact hfound h

end Value

/-! ## Equality under a comparer -/

namespace Comparer

/-- The comparer of the items of a list. -/
def element : Comparer → Comparer
  | .sequence element => element
  | _ => .default

/-- The named members that a comparer of records looks at. -/
def members? : Comparer → Option (List (String × Comparer))
  | .record members => some members
  | _ => none

/-- `Equated c a b`: one way for two values to be equal under a comparer. -/
inductive Equated : Comparer → Value → Value → Prop
  | atom {c : Comparer} {v : Value} (h : v.isAtom = true) : Equated c v v
  | floats {c : Comparer} {a b : Value} {bits : UInt64} (ha : a.floatBits? = some bits)
      (hb : b.floatBits? = some bits) : Equated c a b
  | decimals {c : Comparer} {d e : Numeral.Scaled} (h : d.sameNumber e = true) :
      Equated c (.decimal d) (.decimal e)
  | bigDecimals {c : Comparer} {d e : Numeral.Scaled} (h : d.sameNumber e = true) :
      Equated c (.bigDecimal d) (.bigDecimal e)
  | zoned {c : Comparer} {z w : Calendar.Zoned} (h : z.instant = w.instant) :
      Equated c (.zoned z) (.zoned w)
  | json {c : Comparer} {j k : Json} (h : j.same k = true) : Equated c (.json j) (.json k)
  | lists {c : Comparer} {as bs : List Value}
      (h : List.Forall₂ (fun a b => c.element.equals a b = true) as bs) :
      Equated c (.list as) (.list bs)
  | multi {c : Comparer} {lengths : List Nat} {as bs : List Value}
      (h : List.Forall₂ (fun a b => Comparer.default.equals a b = true) as bs) :
      Equated c (.multi lengths as) (.multi lengths bs)
  | members {c : Comparer} {members : List (String × Comparer)} {r s : Record}
      (hc : c.members? = some members)
      (h : ∀ member ∈ members, Option.Rel (fun a b => member.2.equals a b = true)
        (r.getIgnoringCase? member.1) (s.getIgnoringCase? member.1)) :
      Equated c (.record r) (.record s)
  | entries {c : Comparer} {r s : Record} (hc : c.members? = none) (hsize : r.size = s.size)
      (h : ∀ entry ∈ r.toList, ∃ b, s.get? entry.1 = some b ∧
        Comparer.default.equals entry.2 b = true) : Equated c (.record r) (.record s)

/-- Whether a comparer looks at the inside of a value instead of comparing it plainly. -/
def looksInto : Comparer → Value → Bool
  | .float, v => v.floatBits?.isSome
  | .sequence _, .list _ => true
  | .record _, .record _ => true
  | _, _ => false

/-- Where a comparer does not look inside, values are compared plainly. -/
theorem equals_plain {c : Comparer} {a : Value} (hc : c.looksInto a = false) (b : Value) :
    c.equals a b = a.same b := by
  rw [equals.eq_def]
  split
  next => rfl
  next hnull => cases b <;> first | rfl | exact absurd rfl hnull
  next hnull => cases a <;> first | rfl | exact absurd rfl hnull
  next =>
    cases c with
    | default | json => rfl
    | float =>
      dsimp only
      split
      next ha _ => simp [looksInto, ha] at hc
      next => rfl
    | sequence | record =>
      dsimp only
      split
      next => cases hc
      next => rfl

/-- Without a comparer for its parts a value is compared plainly. -/
theorem equals_default (a b : Value) : Comparer.default.equals a b = a.same b := equals_plain rfl b

/-- A float is equal to the floats of either width that have its bits. -/
theorem equals_float {a : Value} {bits : UInt64} (ha : a.floatBits? = some bits) (b : Value) :
    Comparer.float.equals a b = true ↔ b.floatBits? = some bits := by
  cases a with
  | f32 x | f64 x =>
    obtain rfl := Option.some.inj ha
    cases b with
    | f32 y | f64 y => exact beq_iff_eq.trans (eq_comm.trans Option.some_inj.symm)
    | _ => exact iff_of_false Bool.false_ne_true (by simp [Value.floatBits?])
  | _ => cases ha

/-- A list is equal to the lists that agree with it item by item. -/
theorem equals_list {element : Comparer} {as : List Value} {b : Value} :
    (Comparer.sequence element).equals (.list as) b = true ↔ ∃ bs, b = .list bs ∧
      List.Forall₂ (fun a b => element.equals a b = true) as bs := by
  cases b with
  | list bs => simp [equals, List.forall₂_iff_zip]
  | _ => exact iff_of_false Bool.false_ne_true (by simp)

/-- Records agree on members when each is found on both sides or on neither, and equal there. -/
theorem equalMembers_iff {members : List (String × Comparer)} {r s : Record} :
    equalMembers members r s = true ↔ ∀ member ∈ members,
      Option.Rel (fun a b => member.2.equals a b = true) (r.getIgnoringCase? member.1)
        (s.getIgnoringCase? member.1) := by
  induction members with
  | nil => simp [equalMembers]
  | cons first rest ih =>
    rw [equalMembers, Bool.and_eq_true, ih, List.forall_mem_cons]
    cases r.getIgnoringCase? first.1 <;> cases s.getIgnoringCase? first.1 <;> simp

/-- A record is equal to the records that agree with it on the members. -/
theorem equals_record {members : List (String × Comparer)} {r : Record} {b : Value} :
    (Comparer.record members).equals (.record r) b = true ↔ ∃ s, b = .record s ∧
      ∀ member ∈ members, Option.Rel (fun a b => member.2.equals a b = true)
        (r.getIgnoringCase? member.1) (s.getIgnoringCase? member.1) := by
  cases b with
  | record s => simp [equals, equalMembers_iff]
  | _ => exact iff_of_false Bool.false_ne_true (by simp)

/-- `Agrees c a b`: one way for two values to be equal under a comparer: plainly, or by what the
comparer looks at. -/
inductive Agrees : Comparer → Value → Value → Prop
  | plain {c : Comparer} {a b : Value} (hc : c.looksInto a = false) (h : a.same b = true) :
      Agrees c a b
  | floats {a b : Value} {bits : UInt64} (ha : a.floatBits? = some bits)
      (hb : b.floatBits? = some bits) : Agrees .float a b
  | items {element : Comparer} {as bs : List Value}
      (h : List.Forall₂ (fun a b => element.equals a b = true) as bs) :
      Agrees (.sequence element) (.list as) (.list bs)
  | members {members : List (String × Comparer)} {r s : Record}
      (h : ∀ member ∈ members, Option.Rel (fun a b => member.2.equals a b = true)
        (r.getIgnoringCase? member.1) (s.getIgnoringCase? member.1)) :
      Agrees (.record members) (.record r) (.record s)

/-- Values are equal under a comparer in one of the ways. -/
theorem equals_iff {c : Comparer} {a b : Value} : c.equals a b = true ↔ Agrees c a b := by
  constructor
  · intro h
    by_cases hc : c.looksInto a = true
    · unfold looksInto at hc
      split at hc
      next =>
        obtain ⟨bits, ha⟩ := Option.isSome_iff_exists.mp hc
        exact .floats ha ((equals_float ha b).mp h)
      next =>
        obtain ⟨bs, rfl, hitems⟩ := equals_list.mp h
        exact .items hitems
      next =>
        obtain ⟨s, rfl, hmembers⟩ := equals_record.mp h
        exact .members hmembers
      next => cases hc
    · rw [Bool.not_eq_true] at hc
      exact .plain hc ((equals_plain hc b).symm.trans h)
  · intro h
    cases h with
    | plain hc h => exact (equals_plain hc b).trans h
    | floats ha hb => exact (equals_float ha b).mpr hb
    | items h => exact equals_list.mpr ⟨_, rfl, h⟩
    | members h => exact equals_record.mpr ⟨_, rfl, h⟩

/-- Values that are equal under a comparer are so in one of the ways. -/
theorem equated_of_equals {c : Comparer} {a b : Value} (h : c.equals a b = true) :
    Equated c a b := by
  cases equals_iff.mp h with
  | floats ha hb => exact .floats ha hb
  | items hitems => exact .lists hitems
  | members hmembers => exact .members rfl hmembers
  | plain hc hsame =>
    cases Value.same_iff.mp hsame with
    | atom hatom => exact .atom hatom
    | f32 hxy => exact .floats (congrArg some (Numeral.Binary32.canonicalBits_of_ieeeEq hxy)) rfl
    | f64 hxy => exact .floats (congrArg some (Numeral.Binary64.canonicalBits_of_ieeeEq hxy)) rfl
    | decimal hde => exact .decimals hde
    | bigDecimal hde => exact .bigDecimals hde
    | zoned hzw => exact .zoned hzw
    | json hjk => exact .json hjk
    | list hitems =>
      have helement : c.element = .default := by cases c <;> first | rfl | cases hc
      refine .lists ?_
      simpa only [helement, equals_default] using hitems
    | multi hitems => exact .multi (by simpa only [equals_default] using hitems)
    | record hsize hentries =>
      have hmembers : c.members? = none := by cases c <;> first | rfl | cases hc
      exact .entries hmembers hsize (by simpa only [equals_default] using hentries)

section Inversion

variable {c : Comparer}

/-- Null equals null alone. -/
theorem Equated.isNull_eq {a b : Value} (h : c.Equated a b) : a.isNull = b.isNull := by
  have hfloat {v : Value} {bits : UInt64} (hv : v.floatBits? = some bits) : v.isNull = false := by
    cases v <;> first | rfl | cases hv
  cases h with
  | floats ha hb => rw [hfloat ha, hfloat hb]
  | _ => rfl

/-- Lists that are equal agree item by item. -/
theorem forall₂_of_equals {as bs : List Value} (h : c.equals (.list as) (.list bs) = true) :
    List.Forall₂ (fun a b => c.element.equals a b = true) as bs := by
  cases equated_of_equals h with
  | atom hatom => cases hatom
  | floats ha => cases ha
  | lists h => exact h

/-- Records that are equal agree member by member. -/
theorem rel_of_equals {members : List (String × Comparer)} {r s : Record}
    (hc : c.members? = some members) (h : c.equals (.record r) (.record s) = true) :
    ∀ member ∈ members, Option.Rel (fun a b => member.2.equals a b = true)
      (r.getIgnoringCase? member.1) (s.getIgnoringCase? member.1) := by
  cases equated_of_equals h with
  | atom hatom => cases hatom
  | floats ha => cases ha
  | members hc' h =>
    obtain rfl := Option.some.inj (hc.symm.trans hc')
    exact h
  | entries hc' => simp [hc] at hc'

end Inversion

/-! ## Parts of equal values -/

/-- `Paired c a b c' a' b'`: to compare two values under one comparer, two of their parts are
compared under another. -/
inductive Paired : Comparer → Value → Value → Comparer → Value → Value → Prop
  | whole {c : Comparer} {a b : Value} : Paired c a b c a b
  | item {c c' : Comparer} {as bs : List Value} {a b a' b' : Value} (hmem : (a, b) ∈ as.zip bs)
      (h : Paired c.element a b c' a' b') : Paired c (.list as) (.list bs) c' a' b'
  | cell {c c' : Comparer} {lengths : List Nat} {as bs : List Value} {a b a' b' : Value}
      (hmem : (a, b) ∈ as.zip bs) (h : Paired .default a b c' a' b') :
      Paired c (.multi lengths as) (.multi lengths bs) c' a' b'
  | member {c c' : Comparer} {members : List (String × Comparer)} {member : String × Comparer}
      {r s : Record} {a b a' b' : Value} (hc : c.members? = some members)
      (hmember : member ∈ members) (ha : r.getIgnoringCase? member.1 = some a)
      (hb : s.getIgnoringCase? member.1 = some b) (h : Paired member.2 a b c' a' b') :
      Paired c (.record r) (.record s) c' a' b'
  | entry {c c' : Comparer} {name : String} {r s : Record} {a b a' b' : Value}
      (hc : c.members? = none) (ha : r.get? name = some a) (hb : s.get? name = some b)
      (h : Paired .default a b c' a' b') : Paired c (.record r) (.record s) c' a' b'

end Comparer

end TypedSql
