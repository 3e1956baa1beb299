import TypedSql.HostType.Basic
import TypedSql.Text.Inspected
import TypedSql.Numeral.Digits

/-!
# Host types in messages

The one-line description of a host type as error messages show it.
-/

namespace TypedSql

/-- A named part in parentheses. -/
def tagged (name : String) (body : String) : String := name ++ "(" ++ body ++ ")"

/-- Text after a name, between braces. -/
def braced (name body : String) : String := name ++ " \x7b " ++ body ++ " \x7d"

/-- Texts separated by commas, between brackets. -/
def bracketed (items : List String) : String := "[" ++ ", ".intercalate items ++ "]"

/-- Text of an integer. -/
def integerText (i : Int) : String := String.ofList (Numeral.signed i)

/-- Text of a truth value. -/
def boolText (b : Bool) : String := if b then "true" else "false"

/-- The name of a shape. -/
def Shape.describe : Shape → String
  | .array => "Array"
  | .list => "List"
  | .sequence => "Sequence"
  | .multi rank => tagged "MultiArray" (integerText rank)

/-- The name of a scalar type. -/
def ScalarType.describe : ScalarType → String
  | .bool => "Bool"
  | .i8 => "I8"
  | .i16 => "I16"
  | .i32 => "I32"
  | .i64 => "I64"
  | .u8 => "U8"
  | .u16 => "U16"
  | .u32 => "U32"
  | .u64 => "U64"
  | .f32 => "F32"
  | .f64 => "F64"
  | .decimal => "Decimal"
  | .bigDecimal => "BigDecimal"
  | .string => "String"
  | .char => "Char"
  | .bytes => "Bytes"
  | .uuid => "Uuid"
  | .date => "Date"
  | .time => "Time"
  | .dateTime => "DateTime"
  | .timestamp => "Timestamp"
  | .zoned => "Zoned"
  | .json => "Json"
  | .geography => "Geography"

/-- A variant with its discriminant. -/
def EnumVariant.describe (v : EnumVariant) : String :=
  braced "EnumVariant" ("name: " ++ Text.inspect v.name ++
    ", discriminant: " ++ integerText v.discriminant.toInt)

namespace HostType

mutual

/-- The description of a type. -/
def describe : HostType → String
  | .scalar s => s.describe
  | .option inner => tagged "Option" inner.describe
  | .enum ⟨name, underlying, variants⟩ =>
    tagged "Enum" (braced "TypeEnum" ("name: " ++ Text.inspect name ++
      ", underlying: " ++ underlying.describe ++
      ", variants: " ++ bracketed (variants.map EnumVariant.describe)))
  | .list ⟨element, shape⟩ =>
    tagged "List" (braced "TypeList" ("element: " ++ element.describe ++
      ", shape: " ++ shape.describe))
  | .record ⟨name, composite, members⟩ =>
    tagged "Record" (braced "TypeRecord" ("name: " ++ Text.inspect name ++
      ", composite: " ++ boolText composite ++
      ", members: " ++ bracketed (describeMembers members)))
  | .unknown => "Unknown"

/-- The descriptions of members. -/
def describeMembers : List Member → List String
  | [] => []
  | ⟨name, type, readable, writable⟩ :: rest =>
    braced "RecordMember" ("name: " ++ Text.inspect name ++ ", ty: " ++ type.describe ++
      ", readable: " ++ boolText readable ++ ", writable: " ++ boolText writable) ::
        describeMembers rest

end

end HostType

end TypedSql
