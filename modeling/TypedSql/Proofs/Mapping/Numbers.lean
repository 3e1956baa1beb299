import TypedSql.Proofs.Literal.Rerendering
import TypedSql.Proofs.Mapping.ReadBack
import TypedSql.Proofs.Wire.Conformance

/-!
# Numbers read from a document

A document is read part by part: its items at the element type of a list, and what the members of a
record take at their types. A number that is read at an integer type has to be an integer in the
range of the type, and becomes a value of just this type. A number that is read at a float type
becomes a 64-bit float whichever of the two float types it is.
-/

namespace TypedSql

open Result

/-! ## Entries -/

namespace Entries

variable {α : Type}

/-- An entry that is set is there. -/
theorem get?_insert_self (r : Entries α) (name : String) (a : α) :
    (r.insert name a).get? name = some a := by
  obtain ⟨items⟩ := r
  induction items with
  | nil => simp [insert, put, get?]
  | cons first rest ih =>
    obtain ⟨n, b⟩ := first
    by_cases hname : n = name
    · simp [insert, put, get?, hname]
    · simpa [insert, put, get?, hname] using ih

/-- Setting an entry leaves those of other names. -/
theorem get?_insert_of_ne (r : Entries α) {name other : String} (a : α) (h : name ≠ other) :
    (r.insert name a).get? other = r.get? other := by
  obtain ⟨items⟩ := r
  induction items with
  | nil => simp [insert, put, get?, h]
  | cons first rest ih =>
    obtain ⟨n, b⟩ := first
    by_cases hname : n = name
    · simp [insert, put, get?, hname, h]
    · by_cases hother : n = other
      · simp [insert, put, get?, hother, h.symm]
      · simpa [insert, put, get?, hname, hother] using ih

end Entries

namespace Json

/-! ## Parts -/

/-- The parts of a document that members take, each the first one left under a key that agrees with
the name of the member up to ASCII case. Members that find none are left out. -/
def partsTaken : List Member → List (String × Json) → List (Member × Json)
  | [], _ => []
  | member :: rest, entries =>
    match takeMember? member.name entries with
    | none => partsTaken rest entries
    | some (json, others) => (member, json) :: partsTaken rest others

/-- The last part taken by a member of a name. -/
def lastTaken? (name : String) (parts : List (Member × Json)) : Option (Member × Json) :=
  (parts.filter fun part => part.1.name == name).getLast?

/-- Sets the entry of a member to what is read from the part that it takes. -/
def enter (done : Record) (part : Member × Json) : Result Record :=
  (part.2.toValue part.1.type).map (done.insert part.1.name)

/-- Entries are set one after the other, in the order of the members. -/
theorem toEntries_eq_foldlM (members : List Member) (entries : List (String × Json))
    (done : Record) :
    toEntries members entries done = (partsTaken members entries).foldlM enter done := by
  induction members generalizing entries done with
  | nil => rfl
  | cons member rest ih =>
    rw [toEntries, partsTaken]
    cases takeMember? member.name entries with
    | none => exact ih entries done
    | some found =>
      obtain ⟨json, others⟩ := found
      rw [List.foldlM_cons, enter]
      dsimp only
      cases json.toValue member.type with
      | error => rfl
      | ok value => exact ih others (done.insert member.name value)

/-- When entries are set, each part is read. -/
theorem succeeds_of_foldlM_enter {parts : List (Member × Json)} {done : Record}
    (h : Succeeds (parts.foldlM enter done)) :
    ∀ part ∈ parts, Succeeds (part.2.toValue part.1.type) := by
  induction parts generalizing done with
  | nil => exact fun _ hpart => absurd hpart List.not_mem_nil
  | cons first rest ih =>
    rw [List.foldlM_cons, succeeds_bind] at h
    obtain ⟨next, hnext, hrest⟩ := h
    exact List.forall_mem_cons.mpr ⟨succeeds_map.mp ⟨next, hnext⟩, ih hrest⟩

/-- An entry that is set is what is read from the last part that a member of its name takes. -/
theorem get?_of_foldlM_enter {parts : List (Member × Json)} {done r : Record} {name : String}
    {w : Value} (h : parts.foldlM enter done = .ok r) (hw : r.get? name = some w) :
    (lastTaken? name parts = none ∧ done.get? name = some w) ∨
      ∃ part, lastTaken? name parts = some part ∧ part.2.toValue part.1.type = .ok w := by
  -- from the right, since the last part of a name is the one that stays
  induction parts using List.reverseRecOn generalizing r with
  | nil =>
    cases h
    exact .inl ⟨rfl, hw⟩
  | append_singleton parts last ih =>
    rw [List.foldlM_append, bind_eq_ok] at h
    obtain ⟨before, hbefore, h⟩ := h
    rw [List.foldlM_cons, bind_eq_ok] at h
    obtain ⟨after, hlast, h⟩ := h
    cases h
    obtain ⟨value, hvalue, rfl⟩ := map_eq_ok.mp hlast
    by_cases hname : last.1.name = name
    · subst hname
      rw [Entries.get?_insert_self] at hw
      cases hw
      exact .inr ⟨last, by simp [lastTaken?], hvalue⟩
    · have hsame : lastTaken? name (parts ++ [last]) = lastTaken? name parts := by
        simp [lastTaken?, hname]
      rw [Entries.get?_insert_of_ne _ _ hname] at hw
      rw [hsame]
      exact ih hbefore hw

/-! ## Reading part by part -/

/-- `Visits t j t' j'`: reading a document at a type reads a part of it at a type. -/
inductive Visits : HostType → Json → HostType → Json → Prop
  | whole {t : HostType} {j : Json} : Visits t j t j
  | option {inner t' : HostType} {j j' : Json} (h : Visits inner j t' j') :
      Visits (.option inner) j t' j'
  | item {l : ListType} {items : List Json} {item j' : Json} {t' : HostType} (hitem : item ∈ items)
      (h : Visits l.element item t' j') : Visits (.list l) (.array items) t' j'
  | member {r : RecordType} {members : List (String × Json)} {part : Member × Json} {t' : HostType}
      {j' : Json} (hpart : part ∈ partsTaken r.members members)
      (h : Visits part.1.type part.2 t' j') : Visits (.record r) (.object members) t' j'

/-- `ReadAt t j v t' j' v'`: where a document has been read at a type as a value, a value in it has
been read from a part of the document at a type. -/
inductive ReadAt : HostType → Json → Value → HostType → Json → Value → Prop
  | whole {t : HostType} {j : Json} {v : Value} : ReadAt t j v t j v
  | option {inner t' : HostType} {j j' : Json} {v v' : Value} (h : ReadAt inner j v t' j' v') :
      ReadAt (.option inner) j v t' j' v'
  | item {l : ListType} {items : List Json} {values : List Value} {item j' : Json} {w v' : Value}
      {t' : HostType} (hitem : (item, w) ∈ items.zip values)
      (h : ReadAt l.element item w t' j' v') :
      ReadAt (.list l) (.array items) (.list values) t' j' v'
  | member {r : RecordType} {members : List (String × Json)} {entries : Record} {name : String}
      {part : Member × Json} {w v' : Value} {t' : HostType} {j' : Json}
      (hpart : lastTaken? name (partsTaken r.members members) = some part)
      (hw : entries.get? name = some w) (h : ReadAt part.1.type part.2 w t' j' v') :
      ReadAt (.record r) (.object members) (.record entries) t' j' v'

/-- A list is read item by item. -/
theorem toValue_array (l : ListType) (items : List Json) : (Json.array items).toValue (.list l) =
    (items.mapM (toValue l.element)).map .list := by
  rw [toValue]

/-- A record is read from the parts that its members take. -/
theorem toValue_object (r : RecordType) (members : List (String × Json)) :
    (Json.object members).toValue (.record r) =
      ((partsTaken r.members members).foldlM enter .empty).map .record := by
  rw [toValue, toEntries_eq_foldlM]

/-- When a document is read, each part that is visited is. -/
theorem succeeds_of_visits {t t' : HostType} {j j' : Json} (h : Visits t j t' j')
    (hj : Succeeds (j.toValue t)) : Succeeds (j'.toValue t') := by
  induction h with
  | whole => exact hj
  | option _ ih =>
    rw [toValue] at hj
    exact ih hj
  | item hitem _ ih =>
    rw [toValue_array, succeeds_map, succeeds_mapM] at hj
    exact ih (hj _ hitem)
  | member hpart _ ih =>
    rw [toValue_object, succeeds_map] at hj
    exact ih (succeeds_of_foldlM_enter hj _ hpart)

/-- Every value in what a document is read as is what its own part is read as. -/
theorem toValue_of_readAt {t t' : HostType} {j j' : Json} {v v' : Value}
    (h : ReadAt t j v t' j' v') (hv : j.toValue t = .ok v) : j'.toValue t' = .ok v' := by
  induction h with
  | whole => exact hv
  | option _ ih =>
    rw [toValue] at hv
    exact ih hv
  | item hitem _ ih =>
    rw [toValue_array, map_eq_ok] at hv
    obtain ⟨values, hvalues, heq⟩ := hv
    cases heq
    exact ih ((List.forall₂_iff_zip.mp (Wire.forall₂_of_mapM hvalues)).2 hitem)
  | member hpart hw _ ih =>
    rw [toValue_object, map_eq_ok] at hv
    obtain ⟨entries, hentries, heq⟩ := hv
    cases heq
    -- the entry has been read from the very part that the position goes through
    rcases get?_of_foldlM_enter hentries hw with ⟨hnone, -⟩ | ⟨part', hpart', hread⟩
    · rw [hpart] at hnone
      cases hnone
    · rw [hpart] at hpart'
      cases hpart'
      exact ih hread

/-- A document is read at a type as at the type without options. -/
theorem toValue_unwrapOption (t : HostType) (j : Json) :
    j.toValue t.unwrapOption = j.toValue t := by
  induction t using HostType.induct with
  | option inner ih =>
    rw [toValue, ← ih]
    rfl
  | _ => rfl

/-! The values that have been read are all values in lists and records -/

/-- What has been read in what has been read in a document has been read in the document. -/
theorem ReadAt.trans {t t' t'' : HostType} {j j' j'' : Json} {v v' v'' : Value}
    (h : ReadAt t j v t' j' v') (h' : ReadAt t' j' v' t'' j'' v'') : ReadAt t j v t'' j'' v'' := by
  induction h with
  | whole => exact h'
  | option _ ih => exact .option (ih h')
  | item hitem _ ih => exact .item hitem (ih h')
  | member hpart hw _ ih => exact .member hpart hw (ih h')

/-- What has been read at an optional type has been read at the type inside. -/
theorem readAt_unwrapOption (t : HostType) (j : Json) (v : Value) :
    ReadAt t j v t.unwrapOption j v := by
  induction t using HostType.induct with
  | option inner ih => exact .option ih
  | _ => exact .whole

/-- In lists of the same length each item stands beside one of the other list. -/
theorem exists_mem_zip {α β : Type} {as : List α} {bs : List β} (h : as.length = bs.length) {b : β}
    (hb : b ∈ bs) : ∃ a, (a, b) ∈ as.zip bs := by
  obtain ⟨i, hi, rfl⟩ := List.mem_iff_getElem.mp hb
  refine ⟨as[i], List.mem_iff_getElem.mpr ⟨i, ?_, List.getElem_zip⟩⟩
  rw [List.length_zip, h, Nat.min_self]
  exact hi

/-- What members take is taken by one of them. -/
theorem mem_of_partsTaken {members : List Member} {entries : List (String × Json)}
    {part : Member × Json} (h : part ∈ partsTaken members entries) : part.1 ∈ members := by
  induction members generalizing entries with
  | nil => exact absurd h List.not_mem_nil
  | cons member rest ih =>
    rw [partsTaken] at h
    split at h
    next => exact List.mem_cons_of_mem _ (ih h)
    next =>
      rcases List.mem_cons.mp h with rfl | h
      · exact List.mem_cons_self ..
      · exact List.mem_cons_of_mem _ (ih h)

section Coverage

variable {t t' : HostType} {j j' : Json} {v w : Value}

/-- Every item of a list that has been read has been read at the element type. -/
theorem exists_readAt_item {values : List Value} (h : ReadAt t j v t' j' (.list values))
    (hv : j.toValue t = .ok v) {l : ListType} (ht : t'.unwrapOption = .list l) (hw : w ∈ values) :
    ∃ item, ReadAt t j v l.element item w := by
  have hlist : ReadAt t j v (.list l) j' (.list values) :=
    h.trans (ht ▸ readAt_unwrapOption t' j' _)
  have hread := toValue_of_readAt hlist hv
  cases j' with
  | array items =>
    rw [toValue_array, map_eq_ok] at hread
    obtain ⟨read, hread, heq⟩ := hread
    cases heq
    obtain ⟨item, hitem⟩ := exists_mem_zip (Wire.forall₂_of_mapM hread).length_eq hw
    exact ⟨item, hlist.trans (.item hitem .whole)⟩
  | _ => simp [toValue] at hread

/-- Every entry of a record that has been read has been read at the type of a member of its name. -/
theorem exists_readAt_entry {entries : Record} (h : ReadAt t j v t' j' (.record entries))
    (hv : j.toValue t = .ok v) {r : RecordType} (ht : t'.unwrapOption = .record r) {name : String}
    (hw : entries.get? name = some w) :
    ∃ member ∈ r.members, member.name = name ∧ ∃ part, ReadAt t j v member.type part w := by
  have hrecord : ReadAt t j v (.record r) j' (.record entries) :=
    h.trans (ht ▸ readAt_unwrapOption t' j' _)
  have hread := toValue_of_readAt hrecord hv
  cases j' with
  | object members =>
    rw [toValue_object, map_eq_ok] at hread
    obtain ⟨read, hread, heq⟩ := hread
    cases heq
    rcases get?_of_foldlM_enter hread hw with ⟨-, hempty⟩ | ⟨part, hpart, -⟩
    · cases hempty
    · obtain ⟨hmem, hname⟩ := List.mem_filter.mp (List.mem_of_getLast? hpart)
      exact ⟨part.1, mem_of_partsTaken hmem, by simpa using hname, part.2,
        hrecord.trans (.member hpart hw .whole)⟩
  | _ => simp [toValue] at hread

end Coverage

end Json

/-! ## Numbers -/

/-- The lowest and the highest number of an integer type. -/
def ScalarType.range? : ScalarType → Option (Int × Int)
  | .i8 => some (-128, 127)
  | .i16 => some (-32768, 32767)
  | .i32 => some (-2147483648, 2147483647)
  | .i64 => some (-9223372036854775808, 9223372036854775807)
  | .u8 => some (0, 255)
  | .u16 => some (0, 65535)
  | .u32 => some (0, 4294967295)
  | .u64 => some (0, 18446744073709551615)
  | _ => none

namespace JsonNumber

/-- The integer that a number of a document is; floats are none. -/
def integer? : JsonNumber → Option Int
  | .natural v => some v.toNat
  | .negative v => some v.toInt
  | .float _ => none

/-- A number of a document is an integer in a range. -/
def Within (n : JsonNumber) (range : Int × Int) : Prop :=
  ∃ i, n.integer? = some i ∧ range.1 ≤ i ∧ i ≤ range.2

variable {n : JsonNumber}

/-- A number that fits 64 bits with a sign is that integer. -/
theorem integer?_of_toInt64? {v : Int64} (h : n.toInt64? = some v) : n.integer? = some v.toInt := by
  cases n with
  | natural w =>
    obtain ⟨hle, hv⟩ := Option.ite_none_right_eq_some.mp h
    cases hv
    exact congrArg some (Literal.toInt_toInt64 hle).symm
  | negative w =>
    cases h
    rfl
  | float => cases h

/-- A number that fits 64 bits without a sign is that integer. -/
theorem integer?_of_toUInt64? {v : UInt64} (h : n.toUInt64? = some v) :
    n.integer? = some (v.toNat : Int) := by
  cases n with
  | natural w =>
    cases h
    rfl
  | negative | float => cases h

end JsonNumber

namespace Json

variable {n : JsonNumber} {t : HostType} {j : Json} {v w : Value} {s : ScalarType}

/-- An integer that is read at a type is in its range and becomes a value of the type. -/
theorem integerAs?_some (h : integerAs? n (.scalar s) = some w) :
    w.scalarType? = some s ∧ ∃ range, s.range? = some range ∧ n.Within range := by
  cases s with
  | i8 | i16 | i32 =>
    obtain ⟨i, hi, rfl⟩ := Option.map_eq_some_iff.mp h
    obtain ⟨v, hv, hi⟩ := Option.bind_eq_some_iff.mp hi
    obtain ⟨⟨hlow, hhigh⟩, -⟩ := Option.ite_none_right_eq_some.mp hi
    exact ⟨rfl, _, rfl, _, JsonNumber.integer?_of_toInt64? hv, hlow, Int.le_of_lt_add_one hhigh⟩
  | i64 =>
    obtain ⟨v, hv, rfl⟩ := Option.map_eq_some_iff.mp h
    exact ⟨rfl, _, rfl, _, JsonNumber.integer?_of_toInt64? hv, v.le_toInt,
      Int.le_of_lt_add_one v.toInt_lt⟩
  | u8 | u16 | u32 =>
    obtain ⟨i, hi, rfl⟩ := Option.map_eq_some_iff.mp h
    obtain ⟨v, hv, hi⟩ := Option.bind_eq_some_iff.mp hi
    obtain ⟨hlt, -⟩ := Option.ite_none_right_eq_some.mp hi
    exact ⟨rfl, _, rfl, _, JsonNumber.integer?_of_toUInt64? hv, Int.natCast_nonneg _,
      Int.ofNat_le.mpr (Nat.le_of_lt_succ hlt)⟩
  | u64 =>
    obtain ⟨v, hv, rfl⟩ := Option.map_eq_some_iff.mp h
    exact ⟨rfl, _, rfl, _, JsonNumber.integer?_of_toUInt64? hv, Int.natCast_nonneg _,
      Int.ofNat_le.mpr (Nat.le_of_lt_succ v.toNat_lt)⟩
  | _ => cases h

/-- A number that is read at an integer type is in its range and becomes a value of the type. -/
theorem toValue_integer (hs : (HostType.scalar s).isInteger = true)
    (h : (Json.number n).toValue (.scalar s) = .ok v) :
    v.scalarType? = some s ∧ ∃ range, s.range? = some range ∧ n.Within range := by
  have hfloat : (HostType.scalar s).isFloat = false := by
    cases s <;> first | rfl | cases hs
  cases hread : integerAs? n (.scalar s) with
  | none => simp [toValue, hfloat, hs, hread] at h
  | some w =>
    obtain rfl : w = v := by simpa [toValue, hfloat, hs, hread] using h
    exact integerAs?_some hread

/-- A number that is read at a float type becomes a 64-bit float. -/
theorem toValue_float (hs : (HostType.scalar s).isFloat = true) :
    (Json.number n).toValue (.scalar s) = .ok (.f64 n.toBinary64) := by
  simp [toValue, hs]

/-- What is read at an integer or float type is null, a part of the document that is no number, or
a value of the type, but for numbers read at the 32-bit float type. -/
theorem toValue_number_iff
    (hs : (HostType.scalar s).isInteger = true ∨ (HostType.scalar s).isFloat = true)
    (h : j.toValue (.scalar s) = .ok v) :
    v = .null ∨ (v = .json j ∧ ∀ n, j ≠ .number n) ∨ v.scalarType? = some s ↔
      ¬(s = .f32 ∧ ∃ n, j = .number n) := by
  have hother : (HostType.scalar s).isBool = false ∧ (HostType.scalar s).isString = false := by
    constructor <;> cases s <;> first | rfl | (rcases hs with hs | hs <;> cases hs)
  cases j with
  | null =>
    cases h
    simp
  | number n =>
    rcases hs with hinteger | hfloat
    · have htyped := (toValue_integer hinteger h).1
      refine iff_of_true (.inr (.inr htyped)) ?_
      rintro ⟨rfl, -⟩
      cases hinteger
    · rw [toValue_float hfloat] at h
      cases h
      cases s <;> simp [Value.scalarType?] <;> cases hfloat
  | bool | text | array | object =>
    simp only [toValue, hother] at h
    cases h
    exact iff_of_true (.inr (.inl ⟨rfl, by simp⟩)) (by simp)

end Json

/-- A number that is read at an integer type without being an integer of its range makes the whole
document fail. Where a document is read, each value in it that has been read at an integer or float
type is null, the part of the document that it has been read from when this is no number, or a value
of just the type; the one exception are numbers read at the 32-bit float type. -/
theorem Mapping.ofStored_numbers {m : Mapping} (hm : m.converter = some .toJson) (j : Json) :
    (∀ (t : HostType) (n : JsonNumber) (s : ScalarType) (range : Int × Int),
      Json.Visits m.type j t (.number n) → t.unwrapOption = .scalar s → s.range? = some range →
      ¬n.Within range → ∃ fault, m.ofStored (.json j) = .error fault) ∧
    ∀ v, m.ofStored (.json j) = .ok v → ∀ (t : HostType) (j' : Json) (v' : Value) (s : ScalarType),
      Json.ReadAt m.type j v t j' v' → t.unwrapOption = .scalar s →
      (HostType.scalar s).isInteger = true ∨ (HostType.scalar s).isFloat = true →
      (v' = .null ∨ (v' = .json j' ∧ ∀ n, j' ≠ .number n) ∨ v'.scalarType? = some s ↔
        ¬(s = .f32 ∧ ∃ n, j' = .number n)) := by
  have hread : m.ofStored (.json j) = j.toValue m.type := by
    rw [ofStored, hm]
    rfl
  rw [hread]
  constructor
  · intro t n s range hvisits ht hrange hout
    have hinteger : (HostType.scalar s).isInteger = true := by
      cases s <;> first | rfl | cases hrange
    cases hj : j.toValue m.type with
    | error fault => exact ⟨fault, rfl⟩
    | ok v =>
      obtain ⟨w, hw⟩ := Json.succeeds_of_visits hvisits ⟨v, hj⟩
      rw [← Json.toValue_unwrapOption, ht] at hw
      obtain ⟨-, range', hrange', hwithin⟩ := Json.toValue_integer hinteger hw
      obtain rfl : range' = range := Option.some.inj (hrange'.symm.trans hrange)
      exact absurd hwithin hout
  · intro v hv t j' v' s hreadAt ht hs
    have hv' := Json.toValue_of_readAt hreadAt hv
    rw [← Json.toValue_unwrapOption, ht] at hv'
    exact Json.toValue_number_iff hs hv'

section Examples

/-- A record with an optional small integer. -/
def gauge : RecordType := ⟨"Gauge", false, [⟨"level", .option (.scalar .i16), true, true⟩]⟩

/-- The document of such a record, with the name of the member in another case. -/
def gaugeDocument (n : UInt64) : Json := .object [("LEVEL", .number (.natural n))]

/-- A small integer is read as one, and one that is too large makes the document fail. -/
theorem ofStored_numbers_gauge :
    ∃ m, (default : Catalog).resolve (some (.record gauge)) (some "JSON") = some m ∧
      m.converter = some .toJson ∧
      m.ofStored (.json (gaugeDocument 7)) = .ok (.record ⟨[("level", .i16 7)]⟩) ∧
      (Value.i16 7 = .null ∨
        (Value.i16 7 = .json (.number (.natural 7)) ∧ ∀ n, Json.number (.natural 7) ≠ .number n) ∨
        (Value.i16 7).scalarType? = some .i16) ∧
      ∃ fault, m.ofStored (.json (gaugeDocument 40000)) = .error fault := by
  have hm := (default : Catalog).resolve_document (t := .record gauge) (.inl rfl)
  have hread : ((Builtin.json.mapping.withType (.record gauge)).withConverter .toJson).ofStored
      (.json (gaugeDocument 7)) = .ok (.record ⟨[("level", .i16 7)]⟩) := rfl
  have hpart : Json.lastTaken? "level" (Json.partsTaken gauge.members
      [("LEVEL", .number (.natural 7))]) =
        some (⟨"level", .option (.scalar .i16), true, true⟩, .number (.natural 7)) := rfl
  have hreadAt : Json.ReadAt (.record gauge) (gaugeDocument 7) (.record ⟨[("level", .i16 7)]⟩)
      (.option (.scalar .i16)) (.number (.natural 7)) (.i16 7) :=
    .member hpart rfl .whole
  have hvisits : Json.Visits (.record gauge) (gaugeDocument 40000) (.option (.scalar .i16))
      (.number (.natural 40000)) :=
    .member (List.mem_singleton_self _) .whole
  have hout : ¬(JsonNumber.natural 40000).Within (-32768, 32767) := by
    rintro ⟨i, hi, -, hhigh⟩
    cases hi
    exact absurd hhigh (by decide)
  refine ⟨_, hm, rfl, hread, ?_, ?_⟩
  · refine ((Mapping.ofStored_numbers rfl _).2 _ hread _ _ _ _ hreadAt rfl (.inl rfl)).mpr ?_
    rintro ⟨h, -⟩
    cases h
  · exact (Mapping.ofStored_numbers rfl _).1 _ _ _ _ hvisits rfl rfl hout

/-- A number that is read at the 32-bit float type is a 64-bit float. -/
theorem exists_ofStored_wide :
    ∃ m x, (default : Catalog).resolve (some (.listOf (.scalar .f32))) (some "JSON") = some m ∧
      m.converter = some .toJson ∧
      m.ofStored (.json (.array [.number (.float x)])) = .ok (.list [.f64 x]) ∧
      Json.ReadAt m.type (.array [.number (.float x)]) (.list [.f64 x]) (.scalar .f32)
        (.number (.float x)) (.f64 x) ∧ (Value.f64 x).scalarType? ≠ some .f32 := by
  have hm := (default : Catalog).resolve_document (t := .listOf (.scalar .f32)) (.inr rfl)
  exact ⟨_, ⟨0x3ff8000000000000⟩, hm, rfl, rfl, .item (List.mem_singleton_self _) .whole,
    by simp [Value.scalarType?]⟩

end Examples

end TypedSql
