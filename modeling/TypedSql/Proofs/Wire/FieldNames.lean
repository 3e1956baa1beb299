import TypedSql.Wire.Basic

/-!
# Names in wire types

The fields of wire types, one by one, and wire types whose fields go by other names.
-/

namespace TypedSql.WireType

mutual

/-- A wire type with other names for its fields, at every level. -/
def mapNames (f : String → String) : WireType → WireType
  | .struct fields => .struct (mapFieldNames f fields)
  | .array element => .array (mapNames f element)
  | t => t

/-- The fields of a wire type with other names. -/
def mapFieldNames (f : String → String) : List (String × WireType) → List (String × WireType)
  | [] => []
  | (name, t) :: rest => (f name, mapNames f t) :: mapFieldNames f rest

end

/-- Fields are renamed one by one. -/
theorem mapFieldNames_eq (f : String → String) (fields : List (String × WireType)) :
    mapFieldNames f fields = fields.map fun field => (f field.1, mapNames f field.2) := by
  induction fields with
  | nil => rfl
  | cons field rest ih => rw [mapFieldNames, ih, List.map_cons]

/-- The wire type of a struct has the fields of the struct, one by one. -/
theorem ofFields_eq (fields : List Field) :
    ofFields fields = fields.map fun f => (f.name, ofMapping f.mapping) := by
  induction fields with
  | nil => rfl
  | cons field rest ih => rw [ofFields, ih, List.map_cons]

/-- The wire type of a mapping depends on its kind and its store type. -/
theorem ofMapping_congr {m m' : Mapping} (hkind : m.kind = m'.kind)
    (hstore : m.storeType = m'.storeType) : ofMapping m = ofMapping m' := by
  obtain ⟨storeType, type, kind, facets, converter, comparer⟩ := m
  obtain ⟨storeType', type', kind', facets', converter', comparer'⟩ := m'
  cases hkind
  cases hstore
  cases kind <;> rfl

end TypedSql.WireType
