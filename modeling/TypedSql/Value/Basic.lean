import TypedSql.HostType.Basic
import TypedSql.Text.AsciiCase
import TypedSql.Numeral.Scaled
import TypedSql.Calendar.Civil
import TypedSql.Uuid
import TypedSql.Json.Basic

/-!
# Values

The values that a program hands over. Each scalar keeps its own variant, so an 8-bit and a 64-bit
one are different values. Records keep their entries in order of first insertion.
-/

namespace TypedSql

open Numeral Calendar

/-- Named things in order of first insertion. -/
structure Entries (α : Type) where
  toList : List (String × α)

namespace Entries

variable {α : Type}

instance : Inhabited (Entries α) := ⟨⟨[]⟩⟩

/-- No entries. -/
def empty : Entries α := ⟨[]⟩

/-- The names in order. -/
def names (r : Entries α) : List String := r.toList.map Prod.fst

/-- The number of entries. -/
def size (r : Entries α) : Nat := r.toList.length

/-- The entry with exactly this name. -/
def get? (r : Entries α) (name : String) : Option α :=
  (r.toList.find? fun entry => entry.1 == name).map Prod.snd

/-- The entry with exactly this name, or else the first whose name agrees up to ASCII case. -/
def getIgnoringCase? (r : Entries α) (name : String) : Option α :=
  match r.get? name with
  | some a => some a
  | none => (r.toList.find? fun entry => Text.sameName entry.1 name).map Prod.snd

/-- A list of entries with one replaced where it stands, or appended. -/
def put (name : String) (a : α) : List (String × α) → List (String × α)
  | [] => [(name, a)]
  | (n, b) :: rest => if n = name then (n, a) :: rest else (n, b) :: put name a rest

/-- Sets an entry; a name that is there keeps its position. -/
def insert (r : Entries α) (name : String) (a : α) : Entries α := ⟨put name a r.toList⟩

/-- Entries inserted one after the other. -/
def ofList (items : List (String × α)) : Entries α :=
  items.foldl (fun r (name, a) => r.insert name a) empty

/-- Every name occurs once. -/
def Distinct (r : Entries α) : Prop := r.names.Nodup

/-- Putting an entry keeps the names and their order, and appends a name that is new. -/
theorem names_put (name : String) (a : α) (items : List (String × α)) :
    (put name a items).map Prod.fst =
      if name ∈ items.map Prod.fst then items.map Prod.fst else items.map Prod.fst ++ [name] := by
  induction items with
  | nil => simp [put]
  | cons first rest ih =>
    obtain ⟨n, b⟩ := first
    by_cases h : n = name
    · simp [put, h]
    · have hne : ¬name = n := fun e => h e.symm
      rw [put, if_neg h, List.map_cons, ih]
      by_cases hr : name ∈ rest.map Prod.fst <;> simp [hr, hne]

/-- Inserting keeps names distinct. -/
theorem Distinct.insert {r : Entries α} (h : r.Distinct) (name : String) (a : α) :
    (r.insert name a).Distinct := by
  unfold Distinct names Entries.insert
  rw [names_put]
  split
  · exact h
  · next hmem =>
    refine List.nodup_append.2 ⟨h, by simp, ?_⟩
    intro x hx y hy hxy
    rw [List.mem_singleton] at hy
    exact hmem (hy ▸ hxy ▸ hx)

end Entries

/-- A host value. -/
inductive Value where
  | null
  | bool (value : Bool)
  | i8 (value : Int8)
  | i16 (value : Int16)
  | i32 (value : Int32)
  | i64 (value : Int64)
  | u8 (value : UInt8)
  | u16 (value : UInt16)
  | u32 (value : UInt32)
  | u64 (value : UInt64)
  | f32 (value : Binary32)
  | f64 (value : Binary64)
  | decimal (value : Scaled)
  | bigDecimal (value : Scaled)
  | string (value : String)
  | char (value : Char)
  | bytes (value : List UInt8)
  | uuid (value : Uuid)
  | date (value : Date)
  | time (value : Time)
  | dateTime (value : DateTime)
  | timestamp (value : Instant)
  | zoned (value : Zoned)
  | json (value : Json)
  /-- A geography in well-known text. -/
  | geography (wkt : String)
  /-- A value of an enumeration, by its discriminant. -/
  | enum (discriminant : Int64)
  | list (items : List Value)
  /-- A rectangular array: the length of each dimension and the items in row-major order. -/
  | multi (lengths : List Nat) (items : List Value)
  | record (entries : Entries Value)

/-- A record value. -/
abbrev Record := Entries Value

instance : Inhabited Value := ⟨.null⟩

namespace Value

/-- The absent value. -/
def isNull : Value → Bool
  | .null => true
  | _ => false

/-- The items of a list. -/
def items? : Value → Option (List Value)
  | .list items => some items
  | _ => none

/-- The entries of a record. -/
def record? : Value → Option Record
  | .record r => some r
  | _ => none

/-- The text of a string. -/
def string? : Value → Option String
  | .string s => some s
  | _ => none

/-- The value as a 64-bit integer, when it is an integer that fits. -/
def toInt64? : Value → Option Int64
  | .i8 v => some v.toInt64
  | .i16 v => some v.toInt64
  | .i32 v => some v.toInt64
  | .i64 v => some v
  | .u8 v => some (Int64.ofNat v.toNat)
  | .u16 v => some (Int64.ofNat v.toNat)
  | .u32 v => some (Int64.ofNat v.toNat)
  | .u64 v => if v.toNat ≤ Int64.maxValue.toInt then some v.toInt64 else none
  | _ => none

/-- The scalar type of a scalar value. -/
def scalarType? : Value → Option ScalarType
  | .bool _ => some .bool
  | .i8 _ => some .i8
  | .i16 _ => some .i16
  | .i32 _ => some .i32
  | .i64 _ => some .i64
  | .u8 _ => some .u8
  | .u16 _ => some .u16
  | .u32 _ => some .u32
  | .u64 _ => some .u64
  | .f32 _ => some .f32
  | .f64 _ => some .f64
  | .decimal _ => some .decimal
  | .bigDecimal _ => some .bigDecimal
  | .string _ => some .string
  | .char _ => some .char
  | .bytes _ => some .bytes
  | .uuid _ => some .uuid
  | .date _ => some .date
  | .time _ => some .time
  | .dateTime _ => some .dateTime
  | .timestamp _ => some .timestamp
  | .zoned _ => some .zoned
  | .json _ => some .json
  | .geography _ => some .geography
  | .enum _ | .list _ | .multi .. | .record _ | .null => none

mutual

/-- The type that a value shows by itself; a list shows that of its first item that is not null. -/
def inferType : Value → HostType
  | .list items => .listOf (inferElement items)
  | v => match v.scalarType? with
    | some s => .scalar s
    | none => .unknown

/-- The type of the first item that is not null. -/
def inferElement : List Value → HostType
  | [] => .unknown
  | item :: rest => if item.isNull then inferElement rest else item.inferType

end

mutual

/-- Equality of values of one variant: floats by IEEE comparison, decimals by number, zoned
instants without their offset, records without their order. -/
def same : Value → Value → Bool
  | .null, .null => true
  | .bool a, .bool b => a == b
  | .i8 a, .i8 b => a == b
  | .i16 a, .i16 b => a == b
  | .i32 a, .i32 b => a == b
  | .i64 a, .i64 b => a == b
  | .u8 a, .u8 b => a == b
  | .u16 a, .u16 b => a == b
  | .u32 a, .u32 b => a == b
  | .u64 a, .u64 b => a == b
  | .f32 a, .f32 b => a.ieeeEq b
  | .f64 a, .f64 b => a.ieeeEq b
  | .decimal a, .decimal b => a.sameNumber b
  | .bigDecimal a, .bigDecimal b => a.sameNumber b
  | .string a, .string b => a == b
  | .char a, .char b => a == b
  | .bytes a, .bytes b => a == b
  | .uuid a, .uuid b => a == b
  | .date a, .date b => a == b
  | .time a, .time b => a == b
  | .dateTime a, .dateTime b => a == b
  | .timestamp a, .timestamp b => a == b
  | .zoned a, .zoned b => a.instant == b.instant
  | .json a, .json b => a.same b
  | .geography a, .geography b => a == b
  | .enum a, .enum b => a == b
  | .list a, .list b => sameItems a b
  | .multi m a, .multi n b => m == n && sameItems a b
  | .record ⟨a⟩, .record b => a.length == b.size && sameEntries a b
  | _, _ => false

/-- Equality of items in order. -/
def sameItems : List Value → List Value → Bool
  | [], [] => true
  | a :: as, b :: bs => a.same b && sameItems as bs
  | _, _ => false

/-- Whether each entry has an equal one of the same name. -/
def sameEntries : List (String × Value) → Record → Bool
  | [], _ => true
  | (name, a) :: rest, b =>
    (match b.get? name with
      | some v => a.same v
      | none => false) && sameEntries rest b

end

end Value

end TypedSql
