import TypedSql.Mapping.Document

/-!
# Converters

Two-way conversions between a host value and the form in which it is stored. Null never reaches a
converter.
-/

namespace TypedSql

open Numeral

/-- A conversion between host values and stored values. -/
inductive Converter where
  /-- Enumerations are stored as integers. -/
  | enumToNumber
  /-- UUIDs are stored as text. -/
  | uuidToText
  /-- Characters are stored as text. -/
  | charToText
  /-- Unsigned 64-bit integers are stored as decimals. -/
  | naturalToDecimal
  /-- Any value is stored as a JSON document. -/
  | toJson
  /-- Sequences of one shape are read back in another. -/
  | materialize (declared concrete : Shape)
deriving DecidableEq, Repr

namespace Converter

/-- The store type of converted values. -/
def storedType : Converter → String
  | .enumToNumber => "INT64"
  | .uuidToText | .charToText => "STRING"
  | .naturalToDecimal => "NUMERIC"
  | .toJson => "JSON"
  | .materialize .. => "ARRAY"

/-- A host value in stored form. -/
def toStored (c : Converter) (v : Value) : Result Value :=
  match c, v with
  | .enumToNumber, .enum discriminant => .ok (.i64 discriminant)
  | .enumToNumber, v =>
    match v.toInt64? with
    | some n => .ok (.i64 n)
    | none => .error (.conversion v c.storedType)
  | .uuidToText, .uuid u => .ok (.string (String.ofList u.text))
  | .uuidToText, .string s => .ok (.string s)
  | .charToText, .char ch => .ok (.string (String.ofList [ch]))
  | .charToText, .string s => .ok (.string s)
  | .naturalToDecimal, .u64 n => .ok (.decimal (.ofInt n.toNat))
  | .toJson, .json j => .ok (.json j)
  | .toJson, v => v.toDocument.map .json
  | .materialize .., .list items => .ok (.list items)
  | _, v => .error (.conversion v c.storedType)

/-- A stored value as a host value of the given type. -/
def ofStored (c : Converter) (v : Value) (type : HostType) : Result Value :=
  match c, v with
  | .enumToNumber, v =>
    match v.toInt64? with
    | some n => .ok (.enum n)
    | none => .error (.conversion v "enum")
  | .uuidToText, .string s =>
    match Uuid.ofText? s.toList with
    | some u => .ok (.uuid u)
    | none => .error (.of .malformedUuid)
  | .charToText, .string s =>
    match s.toList with
    | [ch] => .ok (.char ch)
    | _ => .error (.conversion v "char")
  | .naturalToDecimal, .decimal d =>
    match d.toUInt64? with
    | some n => .ok (.u64 n)
    | none => .error (.conversion v "u64")
  | .toJson, .json j => j.toValue type
  | .materialize .., .list items => .ok (.list items)
  | _, v => .error (.conversion v "host value")

end Converter

end TypedSql
