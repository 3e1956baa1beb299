import TypedSql.HostType.Record
import TypedSql.Value.Basic

/-!
# Comparing, hashing and copying values

A comparer looks at the parts of a value in the way their types ask for: floats so that NaN equals
itself, sequences item by item, records member by member. A hash is described by what is fed to
it, one item after the other.
-/

namespace TypedSql

open Numeral Calendar

/-- A way of comparing values. -/
inductive Comparer where
  /-- Plain equality. -/
  | default
  /-- Floats: NaN equals NaN, and the zeros are one. -/
  | float
  /-- JSON documents by structure. -/
  | json
  /-- Lists item by item. -/
  | sequence (element : Comparer)
  /-- Records by the named members only. -/
  | record (members : List (String × Comparer))

instance : Inhabited Comparer := ⟨.default⟩

/-- One item fed to a hash. -/
inductive FeedItem where
  /-- A length or the tag of a variant. -/
  | word (value : Nat)
  | truth (value : Bool)
  /-- An integer of so many bytes. -/
  | integer (bytes : Nat) (value : Int)
  | bits (value : UInt64)
  /-- A number in its normal spelling. -/
  | number (value : Scaled)
  /-- The digits of a mantissa with zeros after them; a decimal point would leave no trace. -/
  | figures (mantissa : Int) (zeros : Nat)
  | text (value : String)
  | char (value : Char)
  | bytes (value : List UInt8)
  | digits (value : List (Fin 16))
  | date (value : Date)
  | time (value : Time)
  | instant (value : Instant)
deriving DecidableEq

/-- What is fed to a hash. -/
abbrev Feed := List FeedItem

namespace Value

/-- The bits that stand for a float of either width under comparison. -/
def floatBits? : Value → Option UInt64
  | .f32 v => some v.widen.canonicalBits
  | .f64 v => some v.canonicalBits
  | _ => none

mutual

/-- What a value feeds by itself: its tag, and then its content. -/
def feed : Value → Feed
  | .null => [.word 28]
  | .bool v => [.word 0, .truth v]
  | .i8 v => [.word 1, .integer 1 v.toInt]
  | .i16 v => [.word 2, .integer 2 v.toInt]
  | .i32 v => [.word 3, .integer 4 v.toInt]
  | .i64 v => [.word 4, .integer 8 v.toInt]
  | .u8 v => [.word 5, .integer 1 v.toNat]
  | .u16 v => [.word 6, .integer 2 v.toNat]
  | .u32 v => [.word 7, .integer 4 v.toNat]
  | .u64 v => [.word 8, .integer 8 v.toNat]
  | .f32 v => [.word 9, .bits v.widen.canonicalBits]
  | .f64 v => [.word 10, .bits v.canonicalBits]
  | .decimal v => [.word 11, .number v.normal]
  | .bigDecimal v => [.word 12, .figures v.normal.mantissa (-v.normal.scale).toNat]
  | .string v => [.word 13, .text v]
  | .char v => [.word 14, .char v]
  | .bytes v => [.word 15, .bytes v]
  | .uuid v => [.word 16, .digits v.digits]
  | .date v => [.word 17, .date v]
  | .time v => [.word 18, .time v]
  | .dateTime v => [.word 19, .date v.date, .time v.time]
  | .timestamp v => [.word 20, .instant v]
  | .zoned v => [.word 21, .instant v.instant]
  | .json v => [.word 22, .text (String.ofList v.render)]
  | .geography v => [.word 23, .text v]
  | .enum v => [.word 24, .integer 8 v.toInt]
  | .list items => .word 25 :: .word items.length :: feedItems items
  | .multi lengths items =>
    .word 26 :: .word lengths.length :: (lengths.map FeedItem.word ++ feedItems items)
  | .record ⟨entries⟩ => .word 27 :: feedEntries entries

/-- What items feed one after the other. -/
def feedItems : List Value → Feed
  | [] => []
  | item :: rest => item.feed ++ feedItems rest

/-- What entries feed one after the other: name, then value. -/
def feedEntries : List (String × Value) → Feed
  | [] => []
  | (name, value) :: rest => .text name :: (value.feed ++ feedEntries rest)

end

end Value

namespace Comparer

mutual

/-- The comparer of a host type. -/
def forType : HostType → Comparer
  | .scalar .f32 | .scalar .f64 => .float
  | .scalar .json => .json
  | .option inner => forType inner
  | .list ⟨element, _⟩ => .sequence (forType element)
  | .record ⟨_, _, members⟩ => .record (forMembers members)
  | _ => .default

/-- The comparers of the members that can be both read and written. -/
def forMembers : List Member → List (String × Comparer)
  | [] => []
  | ⟨name, type, readable, writable⟩ :: rest =>
    if readable && writable then (name, forType type) :: forMembers rest else forMembers rest

end

mutual

/-- Whether two values are equal under a comparer; null equals null alone. -/
def equals (comparer : Comparer) (a b : Value) : Bool :=
  match a, b with
  | .null, .null => true
  | .null, _ | _, .null => false
  | a, b =>
    match comparer with
    | .float =>
      match a.floatBits?, b.floatBits? with
      | some x, some y => x == y
      | _, _ => a.same b
    | .sequence element =>
      match a, b with
      | .list as, .list bs =>
        as.length == bs.length && (as.zip bs).all fun (x, y) => element.equals x y
      | _, _ => a.same b
    | .record members =>
      match a, b with
      | .record r, .record s => equalMembers members r s
      | _, _ => a.same b
    | .default | .json => a.same b

/-- Whether two records agree on each named member. -/
def equalMembers : List (String × Comparer) → Record → Record → Bool
  | [], _, _ => true
  | (name, comparer) :: rest, r, s =>
    (match r.getIgnoringCase? name, s.getIgnoringCase? name with
      | some a, some b => comparer.equals a b
      | none, none => true
      | _, _ => false) && equalMembers rest r s

end

mutual

/-- What a value feeds under a comparer. -/
def feed (comparer : Comparer) (v : Value) : Feed :=
  match comparer with
  | .sequence element =>
    match v with
    | .list items => .word items.length :: items.flatMap element.feed
    | v => v.feed
  | .record members =>
    match v with
    | .record r => feedMembers members r
    | v => v.feed
  | .default | .float | .json => v.feed

/-- What the named members of a record feed; a missing one feeds null. -/
def feedMembers : List (String × Comparer) → Record → Feed
  | [], _ => []
  | (name, comparer) :: rest, r =>
    (match r.getIgnoringCase? name with
      | some v => comparer.feed v
      | none => Value.null.feed) ++ feedMembers rest r

end

/-- A copy of a value to compare with later. -/
def snapshot : Comparer → Value → Value
  | .sequence element, .list items => .list (items.map element.snapshot)
  | _, v => v

end Comparer

end TypedSql
