import TypedSql.Mapping.Comparer
import TypedSql.Mapping.Converter
import TypedSql.StoreType.Written

/-!
# Mappings

A mapping pairs a host type with a store type. Its kind decides how values are written and bound,
and owns the mappings of the parts. Mappings are values: changing a facet or the host type gives a
sibling. The fields of a struct take record values apart in their order, and put them together again
from positional values.
-/

namespace TypedSql

/-- Parameters that refine a base store type. -/
structure Facets where
  precision : Option UInt32
  scale : Option UInt32
  size : Option UInt32
  nullable : Bool
deriving DecidableEq, Repr

namespace Facets

/-- No facets. -/
def none : Facets := ⟨.none, .none, .none, false⟩

instance : Inhabited Facets := ⟨none⟩

/-- No facet shows in the store type. -/
def isUnparameterized (f : Facets) : Bool := f.precision.isNone && f.scale.isNone && f.size.isNone

end Facets

/-- The kinds of scalar store types. -/
inductive ScalarKind where
  | bool | int64 | float64
  /-- Decimals of either size; the name of the store type tells which. -/
  | decimal
  | string | bytes
  | date | time | dateTime | timestamp
  | json | geography
deriving DecidableEq, Repr, Inhabited

/-- One field of a struct. -/
structure FieldOf (μ : Type) where
  name : String
  mapping : μ
  /-- The host type of the backing member. -/
  type : HostType
  /-- The name of the backing member, where it differs from that of the field. -/
  member : Option String

/-- The name of the backing member. -/
def FieldOf.memberName {μ : Type} (f : FieldOf μ) : String := f.member.getD f.name

/-- The kind of a mapping, owning the mappings of its parts. -/
inductive KindOf (μ : Type) where
  | scalar (kind : ScalarKind)
  /-- An array: its elements, the declared shape and the shape that values are given. -/
  | array (element : μ) (shape materialized : Shape)
  | struct (fields : List (FieldOf μ))

/-- A host type paired with a store type. -/
structure Mapping where
  storeType : String
  type : HostType
  kind : KindOf Mapping
  facets : Facets
  converter : Option Converter
  comparer : Comparer

/-- The kind of a mapping. -/
abbrev Kind := KindOf Mapping

/-- One field of a struct mapping. -/
abbrev Field := FieldOf Mapping

namespace KindOf

variable {μ : Type}

/-- Arrays and structs. -/
def isComposite : KindOf μ → Bool
  | .scalar _ => false
  | _ => true

/-- Kinds whose store type takes a length. -/
def isSized : KindOf μ → Bool
  | .scalar .string | .scalar .bytes => true
  | _ => false

/-- Decimals of either size. -/
def isDecimal : KindOf μ → Bool
  | .scalar .decimal => true
  | _ => false

end KindOf

namespace Mapping

/-- A scalar mapping. -/
def scalar (storeType : String) (type : HostType) (kind : ScalarKind) : Mapping :=
  ⟨storeType, type, .scalar kind, .none, none, .forType type⟩

/-- An array mapping; abstract shapes are materialized by convention. -/
def array (element : Mapping) (list : ListType) (convention : Shape) : Mapping :=
  let concrete := list.shape.materialize convention
  ⟨String.ofList (StoreType.arrayOf element.storeType.toList), .list list,
    .array element list.shape concrete, .none,
    if list.shape.isConcrete then none else some (.materialize list.shape concrete),
    .sequence element.comparer⟩

/-- The struct type written from field names and field store types. -/
def structStoreType (fields : List Field) : String :=
  String.ofList (StoreType.structOf (fields.map fun f =>
    (f.name.toList, f.mapping.storeType.toList)))

/-- A struct mapping; without a store type one is written from the fields. -/
def struct (fields : List Field) (storeType : Option String) (type : HostType) : Mapping :=
  ⟨storeType.getD (structStoreType fields), type, .struct fields, .none, none,
    .record (fields.map fun f => (f.memberName, f.mapping.comparer))⟩

/-- The store type without facets of its own. -/
def baseStoreType (m : Mapping) : String := String.ofList (StoreType.baseName m.storeType.toList)

/-- The store type as it stands in literals, without facets at any level. -/
def literalStoreType (m : Mapping) : String :=
  String.ofList (StoreType.stripFacets m.storeType.toList)

/-- Arrays. -/
def isArray (m : Mapping) : Bool := match m.kind with
  | .array .. => true
  | _ => false

/-- Structs. -/
def isStruct (m : Mapping) : Bool := match m.kind with
  | .struct _ => true
  | _ => false

/-- Whether the mapping is of a scalar kind. -/
def hasKind (m : Mapping) (kind : ScalarKind) : Bool := match m.kind with
  | .scalar k => k == kind
  | _ => false

/-- The mapping of the elements of an array. -/
def element? (m : Mapping) : Option Mapping := match m.kind with
  | .array element _ _ => some element
  | _ => none

/-- The fields of a struct. -/
def fields? (m : Mapping) : Option (List Field) := match m.kind with
  | .struct fields => some fields
  | _ => none

/-- Whether the store type names the larger decimals. -/
def isBigNumeric (m : Mapping) : Bool :=
  (Text.dropIgnoringCase "BIG".toList m.storeType.toList).isSome

/-- The same mapping with other facets; a scalar store type is written anew. -/
def withFacets (m : Mapping) (facets : Facets) : Mapping :=
  let base := m.baseStoreType.toList
  let storeType :=
    if m.kind.isComposite then m.storeType
    else if m.kind.isSized then String.ofList (StoreType.withFacets base facets.size none)
    else if m.kind.isDecimal then
      String.ofList (StoreType.withFacets base facets.precision facets.scale)
    else m.baseStoreType
  { m with storeType, facets }

/-- The same mapping with the facets that a store type shows, if any. -/
def withStoreFacets (m : Mapping) (storeType : List Char) : Mapping :=
  match StoreType.facets? storeType with
  | some (first, second) =>
    if m.kind.isSized then m.withFacets { m.facets with size := some first }
    else m.withFacets { m.facets with precision := some first, scale := second }
  | none => m

/-- The same store type for another host type. -/
def withType (m : Mapping) (type : HostType) : Mapping :=
  { m with type, comparer := .forType type }

/-- The same mapping with a converter. -/
def withConverter (m : Mapping) (converter : Converter) : Mapping :=
  { m with converter := some converter }

/-- A host value in stored form. -/
def toStored (m : Mapping) (v : Value) : Result Value :=
  match m.converter with
  | some c => if v.isNull then .ok v else c.toStored v
  | none => .ok v

/-- A stored value as a host value. -/
def ofStored (m : Mapping) (v : Value) : Result Value :=
  match m.converter with
  | some c => if v.isNull then .ok v else c.ofStored v m.type
  | none => .ok v

end Mapping

/-! ## Struct fields and record members -/

namespace Field

/-- The field meant by a name. -/
def find? (fields : List Field) (name : String) : Option Field := findNamed FieldOf.name name fields

/-- The value of the backing member. -/
def extract (f : Field) (r : Record) : Option Value := r.getIgnoringCase? f.memberName

/-- The values of the backing members in the order of the fields. -/
def extractAll (fields : List Field) (r : Record) : List (Option Value) := fields.map (·.extract r)

/-- The entry that a field's value makes in a record, if its backing member can be written. -/
def entry? (type : RecordType) (f : Field) (v : Value) : Option (String × Value) :=
  match type.member? f.memberName with
  | some m => if m.writable then some (m.name, v) else none
  | none => none

/-- The record made of positional values. -/
def toRecord (fields : List Field) (values : List Value) (type : RecordType) : Record :=
  .ofList ((fields.zip values).filterMap fun (f, v) => entry? type f v)

end Field

end TypedSql
