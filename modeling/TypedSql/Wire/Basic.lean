import TypedSql.Literal.Basic
import TypedSql.Settings

/-!
# Query parameters

The type that a parameter is sent as, and values brought into the form which that type expects:
converted, widened, and with struct fields in declared order.
-/

namespace TypedSql

open Numeral

/-- The type of a query parameter. -/
inductive WireType where
  | bool | int64 | float64 | numeric | bigNumeric
  | string | bytes
  | date | time | dateTime | timestamp
  | json | geography
  | struct (fields : List (String × WireType))
  | array (element : WireType)

namespace WireType

/-- The name of a type, without those of its parts. -/
def name : WireType → String
  | .bool => "BOOL"
  | .int64 => "INT64"
  | .float64 => "FLOAT64"
  | .numeric => "NUMERIC"
  | .bigNumeric => "BIGNUMERIC"
  | .string => "STRING"
  | .bytes => "BYTES"
  | .date => "DATE"
  | .time => "TIME"
  | .dateTime => "DATETIME"
  | .timestamp => "TIMESTAMP"
  | .json => "JSON"
  | .geography => "GEOGRAPHY"
  | .struct _ => "STRUCT"
  | .array _ => "ARRAY"

/-- The wire type of a scalar kind. -/
def ofScalar (big : Bool) : ScalarKind → WireType
  | .bool => .bool
  | .int64 => .int64
  | .float64 => .float64
  | .decimal => if big then .bigNumeric else .numeric
  | .string => .string
  | .bytes => .bytes
  | .date => .date
  | .time => .time
  | .dateTime => .dateTime
  | .timestamp => .timestamp
  | .json => .json
  | .geography => .geography

mutual

/-- The wire type of a mapping. -/
def ofMapping : Mapping → WireType
  | ⟨storeType, type, .scalar kind, facets, converter, comparer⟩ =>
    ofScalar (Mapping.mk storeType type (.scalar kind) facets converter comparer).isBigNumeric kind
  | ⟨_, _, .array element _ _, _, _, _⟩ => .array (ofMapping element)
  | ⟨_, _, .struct fields, _, _, _⟩ => .struct (ofFields fields)

/-- The wire types of fields by name. -/
def ofFields : List Field → List (String × WireType)
  | [] => []
  | ⟨name, mapping, _, _⟩ :: rest => (name, ofMapping mapping) :: ofFields rest

end

end WireType

namespace Wire

/-- A byte of a byte list. -/
def byteOf (v : Value) : Result UInt8 :=
  match v with
  | .u8 b => .ok b
  | v => .error (.conversion v "BYTES")

/-- A stored scalar in the form of its wire type. -/
def scalarValue (m : Mapping) (kind : ScalarKind) (v : Value) : Result Value :=
  match kind, v with
  | .bool, .bool b => .ok (.bool b)
  | .int64, .enum discriminant => .ok (.i64 discriminant)
  | .int64, v =>
    match v.toInt64? with
    | some n => .ok (.i64 n)
    | none => .error (m.mismatch v)
  | .float64, .f32 x => .ok (.f64 x.widen)
  | .float64, .f64 x => .ok (.f64 x)
  | .decimal, .decimal d => .ok (.decimal d)
  | .decimal, .bigDecimal d => .ok (.bigDecimal d)
  | .decimal, .u64 n => .ok (.decimal (.ofInt n.toNat))
  | .decimal, v =>
    match v.toInt64? with
    | some n => .ok (.decimal (.ofInt n.toInt))
    | none => .error (m.mismatch v)
  | .string, .string s => .ok (.string s)
  | .string, .char c => .ok (.string (String.ofList [c]))
  | .string, .uuid u => .ok (.string (String.ofList u.text))
  | .bytes, .bytes bytes => .ok (.bytes bytes)
  | .bytes, .list items => (items.mapM byteOf).map .bytes
  | .date, .date d => .ok (.date d)
  | .time, .time t => .ok (.time t)
  | .dateTime, .dateTime t => .ok (.dateTime t)
  | .timestamp, .timestamp t => .ok (.timestamp t)
  | .timestamp, .zoned z => .ok (.timestamp z.instant)
  | .json, .json j => .ok (.json j)
  | .geography, .geography wkt => .ok (.geography wkt)
  | _, v => .error (m.mismatch v)

mutual

/-- A host value in the form of a mapping's wire type. -/
def value : Mapping → Value → Result Value
  | ⟨storeType, type, .scalar kind, facets, converter, comparer⟩, v =>
    let m : Mapping := ⟨storeType, type, .scalar kind, facets, converter, comparer⟩
    match m.prepare v with
    | .error fault => .error fault
    | .ok none => .ok .null
    | .ok (some v) => scalarValue m kind v
  | ⟨storeType, type, .array element shape materialized, facets, converter, comparer⟩, v =>
    let m : Mapping :=
      ⟨storeType, type, .array element shape materialized, facets, converter, comparer⟩
    match m.prepare v with
    | .error fault => .error fault
    | .ok none => .ok .null
    | .ok (some (.list items)) => (items.mapM (value element)).map .list
    | .ok (some v) => .error (m.mismatch v)
  | ⟨storeType, type, .struct fields, facets, converter, comparer⟩, v =>
    let m : Mapping := ⟨storeType, type, .struct fields, facets, converter, comparer⟩
    match m.prepare v with
    | .error fault => .error fault
    | .ok none => .ok .null
    | .ok (some (.record r)) => (fieldValues fields r .empty).map .record
    | .ok (some v) => .error (m.mismatch v)

/-- The entries for a struct's fields in order; a missing member is null. -/
def fieldValues : List Field → Record → Record → Result Record
  | [], _, done => .ok done
  | ⟨name, mapping, type, member⟩ :: rest, r, done =>
    let found : Result Value := match Field.extract ⟨name, mapping, type, member⟩ r with
      | none => .ok .null
      | some v => value mapping v
    match found with
    | .error fault => .error fault
    | .ok v => fieldValues rest r (done.insert name v)

end

end Wire

/-- A query parameter. -/
structure Parameter where
  name : String
  wireType : Option WireType
  precision : Option UInt32
  scale : Option UInt32
  value : Value

namespace Parameter

/-- A parameter that has not been configured. -/
def of (name : String) (value : Value) : Parameter := ⟨name, none, none, none, value⟩

/-- Precision and scale of a decimal parameter. -/
def decimalFacets (settings : Settings) (m : Mapping) : UInt32 × UInt32 :=
  match m.facets.precision with
  | some precision => (precision, m.facets.scale.getD 0)
  | none => if m.isBigNumeric then settings.bigNumericFacets else settings.numericFacets

/-- The parameter with the wire type and the facets of a mapping. -/
def tag (settings : Settings) (m : Mapping) (p : Parameter) : Parameter :=
  if m.kind.isDecimal then
    let (precision, scale) := decimalFacets settings m
    { p with wireType := some (.ofMapping m), precision := some precision, scale := some scale }
  else { p with wireType := some (.ofMapping m) }

/-- The parameter with another value. -/
def withValue (p : Parameter) (v : Value) : Parameter := { p with value := v }

/-- The parameter configured for a mapping. -/
def configure (settings : Settings) (m : Mapping) (p : Parameter) : Result Parameter :=
  (Wire.value m p.value).map (p.tag settings m).withValue

end Parameter

end TypedSql
