import TypedSql.Fault
import TypedSql.Json.Reader

/-!
# Settings

Choices for type mapping and SQL generation, and their JSON form: an object with known keys only,
each at most once, or the values in order as an array.
-/

namespace TypedSql

/-- Choices for type mapping and SQL generation. -/
structure Settings where
  /-- The concrete shape used for abstract sequences. -/
  materialization : Shape
  /-- What stands before parameter names; the at sign when empty. -/
  marker : String
  /-- Whether constants are written as literals rather than bound as parameters. -/
  inlineConstants : Bool
  /-- Precision and scale of decimal parameters without facets. -/
  numericFacets : UInt32 × UInt32
  /-- Precision and scale of big decimal parameters without facets. -/
  bigNumericFacets : UInt32 × UInt32
deriving DecidableEq, Repr

namespace Settings

/-- The settings of the dialect. -/
def default : Settings := ⟨.list, "", true, (38, 9), (76, 38)⟩

instance : Inhabited Settings := ⟨default⟩

/-- What is written before a parameter name. -/
def effectiveMarker (s : Settings) : String := if s.marker.isEmpty then "@" else s.marker

/-- A shape by its name. -/
def shapeNamed? : String → Option Shape
  | "array" => some .array
  | "list" => some .list
  | "sequence" => some .sequence
  | _ => none

/-- A shape as a name, alone or as the key of a null. -/
def shapeOf? : Json → Option Shape
  | .text name => shapeNamed? name
  | .object [(name, .null)] => shapeNamed? name
  | _ => none

/-- A string. -/
def textOf? : Json → Option String
  | .text s => some s
  | _ => none

/-- A truth value. -/
def boolOf? : Json → Option Bool
  | .bool b => some b
  | _ => none

/-- A 32-bit count. -/
def countOf? : Json → Option UInt32
  | .number (.natural n) => if n.toNat < UInt32.size then some n.toUInt32 else none
  | _ => none

/-- A pair of 32-bit counts. -/
def pairOf? : Json → Option (UInt32 × UInt32)
  | .array [a, b] => do return (← countOf? a, ← countOf? b)
  | _ => none

/-- The settings in the order of their array form. -/
inductive Key where
  | materialization
  | marker
  | inlineConstants
  | numericFacets
  | bigNumericFacets
deriving DecidableEq, Repr

/-- All keys in order. -/
def Key.all : List Key :=
  [.materialization, .marker, .inlineConstants, .numericFacets, .bigNumericFacets]

/-- A key by its name. -/
def Key.named? : String → Option Key
  | "sequence_materialization" => some .materialization
  | "parameter_prefix" => some .marker
  | "inline_constants" => some .inlineConstants
  | "default_numeric_facets" => some .numericFacets
  | "default_bignumeric_facets" => some .bigNumericFacets
  | _ => none

/-- The settings with one value replaced. -/
def set? (s : Settings) (key : Key) (value : Json) : Option Settings :=
  match key with
  | .materialization => (shapeOf? value).map fun v => { s with materialization := v }
  | .marker => (textOf? value).map fun v => { s with marker := v }
  | .inlineConstants => (boolOf? value).map fun v => { s with inlineConstants := v }
  | .numericFacets => (pairOf? value).map fun v => { s with numericFacets := v }
  | .bigNumericFacets => (pairOf? value).map fun v => { s with bigNumericFacets := v }

/-- The settings after the members of an object; a key already seen is refused. -/
def ofMembers? (seen : List Key) (s : Settings) : List (String × Json) → Option Settings
  | [] => some s
  | (name, value) :: rest => do
    let key ← Key.named? name
    guard (key ∉ seen)
    ofMembers? (key :: seen) (← s.set? key value) rest

/-- The settings after the values of an array, at most one for each key. -/
def ofItems? (s : Settings) : List Key → List Json → Option Settings
  | _, [] => some s
  | [], _ :: _ => none
  | key :: keys, value :: rest => do ofItems? (← s.set? key value) keys rest

/-- Reads settings from JSON text; what is missing keeps its default. -/
def read (text : String) : Result Settings :=
  let found := match Json.readRaw? text with
    | some (.object members) => ofMembers? [] default members
    | some (.array items) => ofItems? default Key.all items
    | _ => none
  match found with
  | some s => .ok s
  | none => .error (.of .malformedSettings)

end Settings

end TypedSql
