import TypedSql.Mapping.Basic

/-!
# Built-in mappings

One mapping for each scalar store type, the names that each store type goes by, and the mapping
that each scalar host type has by default.
-/

namespace TypedSql

/-- The scalar store types. -/
inductive Builtin where
  | bool | int64 | float64 | numeric | bigNumeric
  | string | bytes
  | date | time | dateTime | timestamp
  | json | geography
deriving DecidableEq, Repr

namespace Builtin

/-- All scalar store types. -/
def all : List Builtin :=
  [.bool, .int64, .float64, .numeric, .bigNumeric, .string, .bytes, .date, .time, .dateTime,
    .timestamp, .json, .geography]

/-- The canonical mapping of a store type. -/
def mapping : Builtin → Mapping
  | .bool => .scalar "BOOL" (.scalar .bool) .bool
  | .int64 => .scalar "INT64" (.scalar .i64) .int64
  | .float64 => .scalar "FLOAT64" (.scalar .f64) .float64
  | .numeric => .scalar "NUMERIC" (.scalar .decimal) .decimal
  | .bigNumeric => .scalar "BIGNUMERIC" (.scalar .bigDecimal) .decimal
  | .string => .scalar "STRING" (.scalar .string) .string
  | .bytes => .scalar "BYTES" (.scalar .bytes) .bytes
  | .date => .scalar "DATE" (.scalar .date) .date
  | .time => .scalar "TIME" (.scalar .time) .time
  | .dateTime => .scalar "DATETIME" (.scalar .dateTime) .dateTime
  | .timestamp => .scalar "TIMESTAMP" (.scalar .timestamp) .timestamp
  | .json => .scalar "JSON" (.scalar .json) .json
  | .geography => .scalar "GEOGRAPHY" (.scalar .geography) .geography

/-- The names of a store type in upper case, the canonical one first. -/
def names : Builtin → List String
  | .bool => ["BOOL", "BOOLEAN"]
  | .int64 => ["INT64", "INT", "INTEGER", "BIGINT", "SMALLINT", "TINYINT", "BYTEINT"]
  | .float64 => ["FLOAT64", "FLOAT"]
  | .numeric => ["NUMERIC", "DECIMAL"]
  | .bigNumeric => ["BIGNUMERIC", "BIGDECIMAL"]
  | .string => ["STRING"]
  | .bytes => ["BYTES"]
  | .date => ["DATE"]
  | .time => ["TIME"]
  | .dateTime => ["DATETIME"]
  | .timestamp => ["TIMESTAMP"]
  | .json => ["JSON"]
  | .geography => ["GEOGRAPHY"]

/-- The store type with a name, in any case. -/
def named? (name : List Char) : Option Builtin :=
  all.find? fun b => b.names.any fun n => n.toList == Text.upper name

/-- The mapping of a scalar host type. Narrow integers, narrow floats and zoned instants share the
store type of the wide ones; those that do not fit a store type are converted. -/
def ofScalar : ScalarType → Mapping
  | .bool => bool.mapping
  | .i64 => int64.mapping
  | .i8 => int64.mapping.withType (.scalar .i8)
  | .i16 => int64.mapping.withType (.scalar .i16)
  | .i32 => int64.mapping.withType (.scalar .i32)
  | .u8 => int64.mapping.withType (.scalar .u8)
  | .u16 => int64.mapping.withType (.scalar .u16)
  | .u32 => int64.mapping.withType (.scalar .u32)
  | .u64 => (numeric.mapping.withType (.scalar .u64)).withConverter .naturalToDecimal
  | .f64 => float64.mapping
  | .f32 => float64.mapping.withType (.scalar .f32)
  | .decimal => numeric.mapping
  | .bigDecimal => bigNumeric.mapping
  | .string => string.mapping
  | .char => (string.mapping.withType (.scalar .char)).withConverter .charToText
  | .uuid => (string.mapping.withType (.scalar .uuid)).withConverter .uuidToText
  | .bytes => bytes.mapping
  | .date => date.mapping
  | .time => time.mapping
  | .dateTime => dateTime.mapping
  | .timestamp => timestamp.mapping
  | .zoned => timestamp.mapping.withType (.scalar .zoned)
  | .json => json.mapping
  | .geography => geography.mapping

/-- The mapping of a host type that is stored as a scalar, byte arrays included. -/
def ofHostType? : HostType → Option Mapping
  | .scalar s => some (ofScalar s)
  | .list ⟨.scalar .u8, .array⟩ => some (bytes.mapping.withType (.arrayOf (.scalar .u8)))
  | _ => none

end Builtin

end TypedSql
