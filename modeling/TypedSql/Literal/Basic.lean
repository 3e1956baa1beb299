import TypedSql.Literal.Temporal
import TypedSql.Mapping.Basic

/-!
# Literals

Values written as SQL literals of a mapping's store type. Values pass through the mapping's
converter first; arrays and structs are written part by part, and a fault in a part names the
place.
-/

namespace TypedSql

open Numeral

namespace Mapping

/-- A value that does not fit the mapping. -/
def mismatch (m : Mapping) (v : Value) : Fault := .conversion v m.storeType

/-- A value in stored form, or none for null. Rectangular arrays cannot be stored. -/
def prepare (m : Mapping) (v : Value) : Result (Option Value) :=
  match v with
  | .null => .ok none
  | .multi lengths _ => .error (.of (.misshape (.container lengths.length)))
  | v => (m.toStored v).map some

end Mapping

namespace Literal

open Text

/-- A float literal; those without digits are cast from their names. -/
def floatLiteral (x : Binary64) : List Char :=
  match x.parts with
  | .finite .. => x.text
  | .nan => "CAST('NaN' AS FLOAT64)".toList
  | .infinite true => "CAST('-inf' AS FLOAT64)".toList
  | .infinite false => "CAST('inf' AS FLOAT64)".toList

/-- A keyword in front of quoted text that needs no escapes. -/
def keyworded (keyword : String) (body : List Char) : List Char :=
  keyword.toList ++ ' ' :: '\'' :: (body ++ ['\''])

/-- Bytes as hexadecimal escapes. -/
def bytesLiteral (bytes : List UInt8) : List Char :=
  'B' :: '\'' :: (bytes.flatMap (fun b => '\\' :: 'x' :: hexByte b) ++ ['\''])

/-- A byte of a byte list. -/
def byteOf (m : Mapping) (v : Value) : Result UInt8 :=
  match v with
  | .u8 b => .ok b
  | v => .error (m.mismatch v)

/-- The digits of a decimal value, integers included. -/
def decimalDigits? (v : Value) : Option (List Char) :=
  match v with
  | .decimal d => some d.text
  | .bigDecimal d => some d.text
  | .u64 n => some (decimal n.toNat)
  | v => v.toInt64?.map fun n => signed n.toInt

/-- A stored scalar as a literal. -/
def scalarLiteral (m : Mapping) (kind : ScalarKind) (v : Value) : Result (List Char) :=
  match kind, v with
  | .bool, .bool b => .ok (if b then "TRUE".toList else "FALSE".toList)
  | .int64, .enum discriminant => .ok (signed discriminant.toInt)
  | .int64, v =>
    match v.toInt64? with
    | some n => .ok (signed n.toInt)
    | none => .error (m.mismatch v)
  | .float64, .f64 x => .ok (floatLiteral x)
  | .float64, .f32 x => .ok (if x.isFinite then x.text else floatLiteral x.widen)
  | .float64, v =>
    match v.toInt64? with
    | some n => .ok (Binary64.ofInt n.toInt).text
    | none => .error (m.mismatch v)
  | .decimal, v =>
    match decimalDigits? v with
    | some digits => .ok (keyworded (if m.isBigNumeric then "BIGNUMERIC" else "NUMERIC") digits)
    | none => .error (m.mismatch v)
  | .string, .string s => .ok (quotedLiteral s.toList)
  | .string, .char c => .ok (quotedLiteral [c])
  | .string, .uuid u => .ok (quotedLiteral u.text)
  | .bytes, .bytes bytes => .ok (bytesLiteral bytes)
  | .bytes, .list items => (items.mapM (byteOf m)).map bytesLiteral
  | .date, .date d => .ok (keyworded "DATE" (dateText d))
  | .time, .time t => .ok (keyworded "TIME" (timeText t))
  | .dateTime, .dateTime t => .ok (keyworded "DATETIME" (dateTimeText t))
  | .timestamp, .timestamp t => .ok (keyworded "TIMESTAMP" (instantText t))
  | .timestamp, .zoned z => .ok (keyworded "TIMESTAMP" (zonedText z))
  | .json, .json j => .ok ("JSON ".toList ++ quotedLiteral j.render)
  | .geography, .geography wkt =>
    .ok ("ST_GEOGFROMTEXT(".toList ++ quotedLiteral wkt.toList ++ [')'])
  | _, v => .error (m.mismatch v)

/-- Results of all items in order, or the first fault with the place of its item. -/
def eachAt {α β : Type} (f : α → Result β) : Nat → List α → Result (List β)
  | _, [] => .ok []
  | index, item :: rest =>
    match f item with
    | .error fault => .error (fault.inside (.renderingElement index))
    | .ok first =>
      match eachAt f (index + 1) rest with
      | .error fault => .error fault
      | .ok others => .ok (first :: others)

mutual

/-- A value as a literal of a mapping's store type. -/
def literal : Mapping → Value → Result (List Char)
  | ⟨storeType, type, .scalar kind, facets, converter, comparer⟩, v =>
    let m : Mapping := ⟨storeType, type, .scalar kind, facets, converter, comparer⟩
    match m.prepare v with
    | .error fault => .error fault
    | .ok none => .ok "NULL".toList
    | .ok (some v) => scalarLiteral m kind v
  | ⟨storeType, type, .array element shape materialized, facets, converter, comparer⟩, v =>
    let m : Mapping :=
      ⟨storeType, type, .array element shape materialized, facets, converter, comparer⟩
    match m.prepare v with
    | .error fault => .error fault
    | .ok none => .ok "NULL".toList
    | .ok (some (.list items)) =>
      (eachAt (literal element) 0 items).map fun parts =>
        m.literalStoreType.toList ++ '[' :: (StoreType.commaSeparated parts ++ [']'])
    | .ok (some v) => .error (m.mismatch v)
  | ⟨storeType, type, .struct fields, facets, converter, comparer⟩, v =>
    let m : Mapping := ⟨storeType, type, .struct fields, facets, converter, comparer⟩
    match m.prepare v with
    | .error fault => .error fault
    | .ok none => .ok "NULL".toList
    | .ok (some (.record r)) =>
      (fieldLiterals fields r).map fun parts =>
        m.literalStoreType.toList ++ '(' :: (StoreType.commaSeparated parts ++ [')'])
    | .ok (some v) => .error (m.mismatch v)

/-- The literals of a record's fields in the order of the struct; a missing member is null. -/
def fieldLiterals : List Field → Record → Result (List (List Char))
  | [], _ => .ok []
  | ⟨name, mapping, type, member⟩ :: rest, r =>
    let first : Result (List Char) := match Field.extract ⟨name, mapping, type, member⟩ r with
      | none => .ok "NULL".toList
      | some v =>
        match literal mapping v with
        | .error fault => .error (fault.inside (.renderingField name))
        | .ok text => .ok text
    match first with
    | .error fault => .error fault
    | .ok text =>
      match fieldLiterals rest r with
      | .error fault => .error fault
      | .ok others => .ok (text :: others)

end

/-- A value as the text of a literal. -/
def render (m : Mapping) (v : Value) : Result String := (literal m v).map String.ofList

end Literal

end TypedSql
