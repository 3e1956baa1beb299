import TypedSql.Value.Basic
import TypedSql.HostType.Describe
import TypedSql.Calendar.Iso

/-!
# Values in messages

The one-line description of a value as error messages show it.
-/

namespace TypedSql

open Numeral

/-- Map entries between braces. -/
def bracedEntries (entries : List (String × String)) : String :=
  "\x7b" ++ ", ".intercalate (entries.map fun (key, text) => Text.inspect key ++ ": " ++ text) ++
    "\x7d"

/-- A big decimal by sign, scale and base `2 ^ 64` digits. -/
def Scaled.describeLimbs (d : Scaled) : String :=
  let sign := if d.mantissa < 0 then "Minus" else if d.mantissa = 0 then "NoSign" else "Plus"
  tagged "BigDecimal" ("sign=" ++ sign ++ ", scale=" ++ integerText d.scale ++ ", digits=" ++
    bracketed ((limbs d.mantissa.natAbs).map fun n : Nat => integerText n))

namespace Json

mutual

/-- The description of a document. -/
def describe : Json → String
  | .null => "Null"
  | .bool b => tagged "Bool" (boolText b)
  | .number n => tagged "Number" (String.ofList n.render)
  | .text s => tagged "String" (Text.inspect s)
  | .array items => "Array " ++ bracketed (describeItems items)
  | .object members => "Object " ++ bracedEntries (describeMembers members)

/-- The descriptions of items. -/
def describeItems : List Json → List String
  | [] => []
  | item :: rest => item.describe :: describeItems rest

/-- The descriptions of members. -/
def describeMembers : List (String × Json) → List (String × String)
  | [] => []
  | (key, value) :: rest => (key, value.describe) :: describeMembers rest

end

end Json

namespace Value

mutual

/-- The description of a value. -/
def describe : Value → String
  | .null => "Null"
  | .bool v => tagged "Bool" (boolText v)
  | .i8 v => tagged "I8" (integerText v.toInt)
  | .i16 v => tagged "I16" (integerText v.toInt)
  | .i32 v => tagged "I32" (integerText v.toInt)
  | .i64 v => tagged "I64" (integerText v.toInt)
  | .u8 v => tagged "U8" (integerText v.toNat)
  | .u16 v => tagged "U16" (integerText v.toNat)
  | .u32 v => tagged "U32" (integerText v.toNat)
  | .u64 v => tagged "U64" (integerText v.toNat)
  | .f32 v => tagged "F32" (String.ofList v.text)
  | .f64 v => tagged "F64" (String.ofList v.text)
  | .decimal v => tagged "Decimal" (String.ofList v.text)
  | .bigDecimal v => tagged "BigDecimal" (Scaled.describeLimbs v)
  | .string v => tagged "String" (Text.inspect v)
  | .char v => tagged "Char" (Text.inspectChar v)
  | .bytes v => tagged "Bytes" (bracketed (v.map fun b => integerText b.toNat))
  | .uuid v => tagged "Uuid" (String.ofList v.text)
  | .date v => tagged "Date" (String.ofList v.text)
  | .time v => tagged "Time" (String.ofList v.text)
  | .dateTime v => tagged "DateTime" (String.ofList v.text)
  | .timestamp v => tagged "Timestamp" (String.ofList v.text)
  | .zoned v => tagged "Zoned" (String.ofList v.text)
  | .json v => tagged "Json" v.describe
  | .geography v => tagged "Geography" (braced "Geography" ("wkt: " ++ Text.inspect v))
  | .enum v => tagged "Enum" (braced "ValueEnum" ("discriminant: " ++ integerText v.toInt))
  | .list items => tagged "List" (bracketed (describeItems items))
  | .multi lengths items =>
    tagged "MultiArray" (braced "ValueMultiArray" ("lengths: " ++
      bracketed (lengths.map fun n : Nat => integerText n) ++
      ", items: " ++ bracketed (describeItems items)))
  | .record ⟨entries⟩ =>
    tagged "Record" (braced "ValueRecord" ("fields: " ++ bracedEntries (describeEntries entries)))

/-- The descriptions of items. -/
def describeItems : List Value → List String
  | [] => []
  | item :: rest => item.describe :: describeItems rest

/-- The descriptions of entries. -/
def describeEntries : List (String × Value) → List (String × String)
  | [] => []
  | (name, value) :: rest => (name, value.describe) :: describeEntries rest

end

end Value

end TypedSql
