import TypedSql.HostType.Describe
import TypedSql.Fault

/-!
# Values as JSON documents

A host value written as a JSON document, and a document read back into the shape of a host type.
Decimals keep their digits as strings. What a type has no JSON form for stays a document.
-/

namespace TypedSql

open Numeral

-- Powers are those of the core library, whatever else is imported.
attribute [local instance (high)] instPowNat

namespace Value

/-- A float as a JSON number; infinities and NaN have none. -/
def floatDocument (v : Value) (x : Binary64) : Result Json :=
  if x.isFinite then .ok (.number (.float x)) else .error (.conversion v "JSON number")

/-- An unsigned integer as a JSON number. -/
def naturalDocument (n : Nat) : Json := .number (.natural (UInt64.ofNat n))

/-- Characters as a JSON string. -/
def textDocument (s : List Char) : Json := .text (String.ofList s)

mutual

/-- A value as a JSON document. -/
def toDocument (v : Value) : Result Json :=
  match v with
  | .null => .ok .null
  | .bool b => .ok (.bool b)
  | .i8 n => .ok (.number (.ofInt64 n.toInt64))
  | .i16 n => .ok (.number (.ofInt64 n.toInt64))
  | .i32 n => .ok (.number (.ofInt64 n.toInt64))
  | .i64 n => .ok (.number (.ofInt64 n))
  | .u8 n => .ok (naturalDocument n.toNat)
  | .u16 n => .ok (naturalDocument n.toNat)
  | .u32 n => .ok (naturalDocument n.toNat)
  | .u64 n => .ok (naturalDocument n.toNat)
  | .f32 x => floatDocument v x.widen
  | .f64 x => floatDocument v x
  | .decimal d => .ok (textDocument d.text)
  | .bigDecimal d => .ok (textDocument d.text)
  | .string s => .ok (.text s)
  | .char c => .ok (textDocument [c])
  | .bytes octets => .ok (.array (octets.map fun b => naturalDocument b.toNat))
  | .uuid u => .ok (textDocument u.text)
  | .date d => .ok (textDocument d.text)
  | .time t => .ok (textDocument t.text)
  | .dateTime t => .ok (textDocument t.text)
  | .timestamp t => .ok (textDocument t.text)
  | .zoned z => .ok (textDocument z.instant.text)
  | .json j => .ok j
  | .geography wkt => .ok (.text wkt)
  | .enum discriminant => .ok (.number (.ofInt64 discriminant))
  | .list items => (itemDocuments items).map .array
  | .multi lengths _ => .error (.of (.misshape (.jsonArray lengths.length)))
  | .record ⟨entries⟩ => (entryDocuments [] entries).map .object

/-- Items as documents. -/
def itemDocuments : List Value → Result (List Json)
  | [] => .ok []
  | item :: rest => do
    let first ← item.toDocument
    let others ← itemDocuments rest
    return first :: others

/-- Entries as members, in key order. -/
def entryDocuments (done : List (String × Json)) :
    List (String × Value) → Result (List (String × Json))
  | [] => .ok done
  | (name, value) :: rest => do
    let document ← value.toDocument
    entryDocuments (Json.insertMember name document done) rest

end

end Value

namespace Json

/-- An integer that fits a signed width. -/
def signedWithin (bits : Nat) (n : JsonNumber) : Option Int :=
  n.toInt64?.bind fun v =>
    if -2 ^ (bits - 1) ≤ v.toInt ∧ v.toInt < 2 ^ (bits - 1) then some v.toInt else none

/-- An integer that fits an unsigned width. -/
def unsignedWithin (bits : Nat) (n : JsonNumber) : Option Nat :=
  n.toUInt64?.bind fun v => if v.toNat < 2 ^ bits then some v.toNat else none

/-- An integer at its declared width. -/
def integerAs? (n : JsonNumber) : HostType → Option Value
  | .scalar .i8 => (signedWithin 8 n).map fun v => .i8 (Int8.ofInt v)
  | .scalar .i16 => (signedWithin 16 n).map fun v => .i16 (Int16.ofInt v)
  | .scalar .i32 => (signedWithin 32 n).map fun v => .i32 (Int32.ofInt v)
  | .scalar .i64 => n.toInt64?.map .i64
  | .scalar .u8 => (unsignedWithin 8 n).map fun v => .u8 (UInt8.ofNat v)
  | .scalar .u16 => (unsignedWithin 16 n).map fun v => .u16 (UInt16.ofNat v)
  | .scalar .u32 => (unsignedWithin 32 n).map fun v => .u32 (UInt32.ofNat v)
  | .scalar .u64 => n.toUInt64?.map .u64
  | _ => none

/-- Takes the first member whose key agrees up to ASCII case. -/
def takeMember? (name : String) : List (String × Json) → Option (Json × List (String × Json))
  | [] => none
  | (key, value) :: rest =>
    if Text.sameName key name then some (value, rest)
    else (takeMember? name rest).map fun (found, others) => (found, (key, value) :: others)

mutual

/-- A document read back in the shape of a host type.

Members that the document lacks are left out, and each member of the document is used once. -/
def toValue (type : HostType) (json : Json) : Result Value :=
  match type with
  | .option inner => toValue inner json
  | .list ⟨element, _⟩ =>
    match json with
    | .null => .ok .null
    | .array items => (items.mapM (toValue element)).map .list
    | json => .ok (.json json)
  | .record ⟨_, _, members⟩ =>
    match json with
    | .null => .ok .null
    | .object entries => (toEntries members entries .empty).map .record
    | json => .ok (.json json)
  | type =>
    match json with
    | .null => .ok .null
    | .bool b => .ok (if type.isBool then .bool b else .json json)
    | .text s => .ok (if type.isString then .string s else .json json)
    | .number n =>
      if type.isFloat then .ok (.f64 n.toBinary64)
      else if type.isInteger then
        match integerAs? n type with
        | some v => .ok v
        | none => .error (.conversion (.json json) type.describe)
      else .ok (.json json)
    | json => .ok (.json json)

/-- The entries for the members that a document has, in the order of the members. -/
def toEntries : List Member → List (String × Json) → Record → Result Record
  | [], _, done => .ok done
  | ⟨name, type, _, _⟩ :: rest, entries, done =>
    match takeMember? name entries with
    | none => toEntries rest entries done
    | some (json, entries) => do
      let value ← toValue type json
      toEntries rest entries (done.insert name value)

end

end Json

end TypedSql
