import TypedSql.Catalog.Builtin
import TypedSql.Catalog.Key
import TypedSql.Settings

/-!
# Building mappings

How the mapping of a key is made from the mappings of smaller keys. The lookup of smaller keys is
a parameter in any monad, so that one definition serves a plain lookup and one with a memory.

Struct and array store types come first, then composite records and sequences, then the tables of
scalar types; an enumeration goes by its underlying type.
-/

namespace TypedSql.Catalog

/-- A lookup of all keys below a size. -/
abbrev Lookup (m : Type → Type) (n : Nat) := (k : Key) → k.size < n → m (Option Mapping)

variable {m : Type → Type} [Monad m]

/-- A store type by its name, or by its base name with the facets it shows. -/
def scalarNamed? (store : List Char) : Option Mapping :=
  match Builtin.named? store with
  | some b => some b.mapping
  | none =>
    let base := StoreType.baseName store
    if base.length = store.length then none
    else (Builtin.named? base).map fun b => b.mapping.withStoreFacets store

/-- The mapping of an enumeration, from that of its underlying type. -/
def enumMapping? (type : HostType) (underlying : Option Mapping) : Option Mapping :=
  underlying.bind fun u =>
    if u.type.isInteger then some ((u.withType type).withConverter .enumToNumber) else none

/-- The mapping of a scalar host type under a scalar store type. -/
def scalarPair? (type : HostType) (store : List Char) (byStore : Mapping) : Option Mapping :=
  if byStore.type = type then some byStore
  else if byStore.hasKind .json ∧ (type.isRecord ∨ type.isList) then
    some ((byStore.withType type).withConverter .toJson)
  else
    (Builtin.ofHostType? type).bind fun byType =>
      if Text.sameName byType.baseStoreType byStore.baseStoreType then
        some (byType.withStoreFacets store)
      else none

/-- The mapping of an array, unless its elements are arrays or it has several dimensions. -/
def arrayMapping? (settings : Settings) (element : Mapping) (list : ListType) : Option Mapping :=
  if element.isArray then none
  else if list.shape.isMultiDimensional then none
  else some (.array element list settings.materialization)

/-- A struct field, backed by the member that its name means. -/
def structField (record : Option RecordType) (token : StoreType.FieldToken) (mapping : Mapping) :
    Field :=
  let name := String.ofList token.name
  match record.bind fun r => r.member? name with
  | some member =>
    ⟨name, mapping, member.type, if member.name = name then none else some member.name⟩
  | none => ⟨name, mapping, mapping.type, none⟩

/-- The fields of a struct store type; none as soon as one has no mapping. -/
def fieldsOfTokens {n : Nat} (record : Option RecordType) (lookup : Lookup m n) :
    (tokens : List StoreType.FieldToken) → (∀ t ∈ tokens, (Key.ofField record t).size < n) →
      m (Option (List Field))
  | [], _ => pure (some [])
  | token :: rest, small => do
    match ← lookup (Key.ofField record token) (small token (List.mem_cons_self ..)) with
    | none => return none
    | some mapping =>
      let others ← fieldsOfTokens record lookup rest fun t h => small t (List.mem_cons_of_mem _ h)
      return others.map fun fields => structField record token mapping :: fields

/-- The record type of a struct that is known by its store type alone. -/
def anonymousRecord (fields : List Field) : HostType :=
  .record ⟨"STRUCT", true, fields.map fun f => ⟨f.name, f.type, true, true⟩⟩

/-- The fields of a composite record; members without a mapping are left out. -/
def fieldsOfMembers {n : Nat} (lookup : Lookup m n) :
    (members : List Member) → (∀ member ∈ members, member.type.size < n) → m (List Field)
  | [], _ => pure []
  | member :: rest, small => do
    let found ← lookup ⟨some member.type, none⟩
      (by simpa [Key.size, Key.typeSize, Key.storeSize] using small member (List.mem_cons_self ..))
    let others ← fieldsOfMembers lookup rest fun t h => small t (List.mem_cons_of_mem _ h)
    return match found with
      | some mapping => ⟨member.name, mapping, member.type, none⟩ :: others
      | none => others

/-- The mapping of a struct store type, for a record type or for none. -/
def structOfTokens (record : Option RecordType) (store : List Char)
    (tokens : List StoreType.FieldToken)
    (parsed : StoreType.parse? store = some (.struct tokens))
    (lookup : Lookup m (Key.mk (record.map .record) (some store)).size) : m (Option Mapping) := do
  let fields ← fieldsOfTokens record lookup tokens (Key.size_ofField_lt parsed)
  return fields.map fun fields =>
    .struct fields (some (String.ofList store))
      (match record with
        | some r => .record r
        | none => anonymousRecord fields)

/-- The mapping of a composite record without a store type. -/
def structOfRecord (record : RecordType)
    (lookup : Lookup m (Key.mk (some (.record record)) none).size) : m (Option Mapping) := do
  let fields ← fieldsOfMembers lookup record.mappedMembers Key.size_mappedMember_lt
  return if fields.isEmpty then none else some (.struct fields none (.record record))

/-- The mapping of an array store type, for a sequence type or for none. -/
def arrayOfToken (settings : Settings) (list : Option ListType) (store element : List Char)
    (parsed : StoreType.parse? store = some (.array element))
    (lookup : Lookup m (Key.mk (list.map .list) (some store)).size) : m (Option Mapping) := do
  let found ← lookup (Key.of (list.map (·.element)) (some element)) (Key.size_element_lt parsed)
  return found.bind fun mapping =>
    arrayMapping? settings mapping (list.getD ⟨mapping.type, .list⟩)

/-- The mapping of a sequence without a store type. -/
def arrayOfList (settings : Settings) (list : ListType)
    (lookup : Lookup m (Key.mk (some (.list list)) none).size) : m (Option Mapping) := do
  let found ← lookup ⟨some list.element, none⟩ Key.size_listElement_lt
  return found.bind fun mapping => arrayMapping? settings mapping list

/-- The mapping of a struct or an array; none for scalars, and for composites that have none. -/
def buildComposite (settings : Settings) : (k : Key) → Lookup m k.size → m (Option Mapping)
  | ⟨type, some store⟩, lookup =>
    match parsed : StoreType.parse? store with
    | some (.struct tokens) =>
      match type, lookup with
      | some (.record r), lookup => structOfTokens (some r) store tokens parsed lookup
      | none, lookup => structOfTokens none store tokens parsed lookup
      | _, _ => pure none
    | some (.array element) =>
      match type, lookup with
      | some (.list l), lookup => arrayOfToken settings (some l) store element parsed lookup
      | none, lookup => arrayOfToken settings none store element parsed lookup
      | _, _ => pure none
    | none => pure none
  | ⟨some (.record r), none⟩, lookup => if r.composite then structOfRecord r lookup else pure none
  | ⟨some (.list l), none⟩, lookup =>
    if (HostType.list l).isByteSequence then pure none else arrayOfList settings l lookup
  | ⟨_, none⟩, _ => pure none

/-- The mapping of an enumeration, looked up by its underlying type. -/
def buildEnum (e : EnumType) (store : Option (List Char))
    (lookup : Lookup m (Key.mk (some (.enum e)) store).size) : m (Option Mapping) := do
  let underlying ← lookup ⟨some e.underlying, store⟩ Key.size_underlying_lt
  return enumMapping? (.enum e) underlying

/-- The mapping of a scalar. -/
def buildScalar : (k : Key) → Lookup m k.size → m (Option Mapping)
  | ⟨some (.enum e), some store⟩, lookup =>
    match scalarNamed? store with
    | none => pure none
    | some _ => buildEnum e (some store) lookup
  | ⟨some (.enum e), none⟩, lookup => buildEnum e none lookup
  | ⟨some type, some store⟩, _ => pure ((scalarNamed? store).bind (scalarPair? type store))
  | ⟨some type, none⟩, _ => pure (Builtin.ofHostType? type)
  | ⟨none, some store⟩, _ => pure (scalarNamed? store)
  | ⟨none, none⟩, _ => pure none

/-- The same mapping for values that may be absent. -/
def nullable (mapping : Mapping) : Mapping :=
  mapping.withFacets { mapping.facets with nullable := true }

/-- The mapping of an optional type, from that of the type itself. -/
def buildOption (inner : HostType) (store : Option (List Char))
    (lookup : Lookup m (Key.mk (some (.option inner)) store).size) : m (Option Mapping) := do
  let found ← lookup ⟨some inner, store⟩ Key.size_inner_lt
  return found.map nullable

/-- The mapping of a key, made from those of smaller keys. -/
def build (settings : Settings) : (k : Key) → Lookup m k.size → m (Option Mapping)
  | ⟨some (.option inner), store⟩, lookup => buildOption inner store lookup
  | k, lookup => do
    match ← buildComposite settings k lookup with
    | some mapping => return some mapping
    | none => buildScalar k lookup

end TypedSql.Catalog
