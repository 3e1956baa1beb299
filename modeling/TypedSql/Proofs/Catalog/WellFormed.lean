import TypedSql.Proofs.Catalog.Alone

/-!
# Well-formed mappings

The store type of every mapping that a catalog finds, and of every mapping nested in it, spells out
its structure: an array names its element, a struct lists its fields, and a scalar has the canonical
name of its kind with the facets of the mapping.
-/

namespace TypedSql

open StoreType Text

/-! ## Nested mappings -/

namespace Mapping

/-- `Within part m`: a mapping is `m` itself, or nested in it at any depth. -/
inductive Within (part : Mapping) : Mapping → Prop
  | whole : Within part part
  | element {m element : Mapping} {shape materialized : Shape}
      (hkind : m.kind = .array element shape materialized) (h : Within part element) :
      Within part m
  | field {m : Mapping} {fields : List Field} {f : Field} (hkind : m.kind = .struct fields)
      (hf : f ∈ fields) (h : Within part f.mapping) : Within part m

/-! ## Forms -/

/-- The canonical names of the store types of a kind. -/
def canonicalNames : ScalarKind → List String
  | .bool => ["BOOL"]
  | .int64 => ["INT64"]
  | .float64 => ["FLOAT64"]
  | .decimal => ["NUMERIC", "BIGNUMERIC"]
  | .string => ["STRING"]
  | .bytes => ["BYTES"]
  | .date => ["DATE"]
  | .time => ["TIME"]
  | .dateTime => ["DATETIME"]
  | .timestamp => ["TIMESTAMP"]
  | .json => ["JSON"]
  | .geography => ["GEOGRAPHY"]

/-- The facets that a scalar of a kind has to show: precision and scale of a decimal, the size of
text and bytes, and none of others. -/
def shownFacets (facets : Facets) : ScalarKind → Option UInt32 × Option UInt32
  | .decimal => (facets.precision, facets.scale)
  | .string | .bytes => (facets.size, none)
  | _ => (none, none)

/-- The facets that are written in a store type. -/
def writtenFacets (store : List Char) : Option UInt32 × Option UInt32 :=
  ((facets? store).map Prod.fst, (facets? store).bind Prod.snd)

/-- A scalar is called by the canonical name of its kind and shows its facets. -/
structure ScalarForm (m : Mapping) (kind : ScalarKind) : Prop where
  name : m.baseStoreType ∈ canonicalNames kind
  facets : writtenFacets m.storeType.toList = shownFacets m.facets kind

/-- An array is a sequence of one dimension, has elements that are no arrays, and names them. -/
structure ArrayForm (m element : Mapping) : Prop where
  type : ∃ l, m.type = .list l ∧ l.shape.isMultiDimensional = false
  flat : element.isArray = false
  storeType : m.storeType.toList = arrayOf element.storeType.toList

end Mapping

namespace Catalog

open Mapping

/-- A token of a struct store type stands for a field: it has the name, as it is read, and a type
that gives the store type of the field. -/
structure FieldForm (c : Catalog) (read : List Char → List Char) (token : FieldToken) (f : Field) :
    Prop where
  name : token.name = read f.name.toList
  storeType : ∃ m, c.resolveStoreType (String.ofList token.type) = some m ∧
    m.storeType = f.mapping.storeType

/-- A struct is a record and lists its fields in order. Names are read as they are, or with the
escapes in which they stand in a store type that was written from the fields. -/
structure StructForm (c : Catalog) (m : Mapping) (fields : List Field) : Prop where
  type : ∃ r, m.type = .record r
  tokens : ∃ read tokens, (read = id ∨ read = readName ∧ m.storeType = structStoreType fields) ∧
    parse? m.storeType.toList = some (.struct tokens) ∧
      List.Forall₂ (FieldForm c read) tokens fields

/-- A mapping has the form of its kind. -/
def WellFormed (c : Catalog) (m : Mapping) : Prop :=
  match m.kind with
  | .scalar kind => m.ScalarForm kind
  | .array element _ _ => m.ArrayForm element
  | .struct fields => StructForm c m fields

variable {c : Catalog} {k : Key} {m m' : Mapping}

/-- A mapping and all mappings nested in it are well formed. -/
def WellFormedThroughout (c : Catalog) (m : Mapping) : Prop :=
  ∀ part, Within part m → c.WellFormed part

/-- A well-formed mapping is so throughout when its parts are. -/
theorem WellFormed.throughout (h : c.WellFormed m)
    (helement : ∀ element shape materialized, m.kind = .array element shape materialized →
      c.WellFormedThroughout element)
    (hfields : ∀ fields, m.kind = .struct fields → ∀ f ∈ fields,
      c.WellFormedThroughout f.mapping) : c.WellFormedThroughout m := by
  intro part hpart
  cases hpart with
  | whole => exact h
  | element hkind hpart => exact helement _ _ _ hkind part hpart
  | field hkind hf hpart => exact hfields _ hkind _ hf part hpart

/-- Mappings of the same kind have the same parts. -/
theorem WellFormedThroughout.of_kind (h : c.WellFormedThroughout m) (hkind : m'.kind = m.kind)
    (hm' : c.WellFormed m') : c.WellFormedThroughout m' :=
  hm'.throughout (fun _ _ _ helement part hpart => h part (.element (hkind ▸ helement) hpart))
    fun _ hfields _ hf part hpart => h part (.field (hkind ▸ hfields) hf hpart)

/-! ## Scalars -/

/-- The form of a scalar is that of its store type and its facets. -/
theorem ScalarForm.of_eq {kind : ScalarKind} (h : m.ScalarForm kind)
    (hstore : m'.storeType = m.storeType) (hprecision : m'.facets.precision = m.facets.precision)
    (hscale : m'.facets.scale = m.facets.scale) (hsize : m'.facets.size = m.facets.size) :
    m'.ScalarForm kind := by
  refine ⟨?_, ?_⟩
  · rw [baseStoreType, hstore]
    exact h.name
  · rw [hstore, h.facets]
    cases kind <;> simp only [shownFacets, hprecision, hscale, hsize]

/-- A scalar is well formed throughout when it has its form. -/
theorem throughout_scalar {kind : ScalarKind} (hkind : m.kind = .scalar kind)
    (h : m.ScalarForm kind) : c.WellFormedThroughout m := by
  have hm : c.WellFormed m := by
    rw [WellFormed, hkind]
    exact h
  exact hm.throughout (by simp [hkind]) (by simp [hkind])

/-- The facets of a table name are read as they were written. -/
theorem writtenFacets_withFacets {base : List Char} (hbase : IsTableName base)
    {precision scale : Option UInt32} (h : precision = none → scale = none) :
    writtenFacets (StoreType.withFacets base precision scale) = (precision, scale) := by
  rw [writtenFacets]
  cases precision with
  | none =>
    rw [show StoreType.withFacets base none scale = base from rfl, hbase.isBaseName.facets?_eq_none,
      h rfl]
    rfl
  | some p =>
    rw [hbase.isBaseName.facets?_withFacets]
    rfl

/-- A built-in mapping shows the facets of its kind. -/
theorem storeType_withFacets_eq (b : Builtin) {kind : ScalarKind}
    (hkind : b.mapping.kind = .scalar kind) (f : Facets) :
    (b.mapping.withFacets f).storeType.toList =
      StoreType.withFacets b.mapping.storeType.toList (shownFacets f kind).1
        (shownFacets f kind).2 := by
  rw [Mapping.withFacets, (shows_builtin b).baseStoreType]
  cases b <;> cases hkind <;> first | rfl | exact String.toList_ofList

/-- There is no scale without a precision. -/
def ScaleHasPrecision (m : Mapping) : Prop := m.facets.precision = none → m.facets.scale = none

/-- A store type gives no scale without a precision. -/
theorem ScaleHasPrecision.withStoreFacets (h : ScaleHasPrecision m) (store : List Char) :
    ScaleHasPrecision (m.withStoreFacets store) := by
  unfold Mapping.withStoreFacets
  split
  next =>
    split
    next => exact h
    next => exact fun hnone => nomatch hnone
  next => exact h

/-- A scalar that shows its facets has the form of its kind. -/
theorem Shows.scalarForm {b : Builtin} {kind : ScalarKind} (h : Shows m b)
    (hscale : ScaleHasPrecision m) (hkind : m.kind = .scalar kind) : m.ScalarForm kind := by
  have hb : b.mapping.kind = .scalar kind := h.kind ▸ hkind
  refine ⟨?_, ?_⟩
  · rw [h.baseStoreType]
    cases b <;> cases hb <;> simp [canonicalNames, Builtin.mapping, Mapping.scalar]
  · rw [h.storeType, storeType_withFacets_eq b hb]
    refine writtenFacets_withFacets (isTableName_builtin b) fun hnone => ?_
    cases kind <;> first | rfl | exact hscale hnone

/-- A scalar that shows its facets is well formed throughout. -/
theorem Shows.throughout {b : Builtin} (h : Shows m b) (hscale : ScaleHasPrecision m) :
    c.WellFormedThroughout m := by
  obtain ⟨kind, hb⟩ : ∃ kind, b.mapping.kind = .scalar kind := by cases b <;> exact ⟨_, rfl⟩
  have hkind : m.kind = .scalar kind := h.kind.trans hb
  exact throughout_scalar hkind (h.scalarForm hscale hkind)

/-- A bare mapping has no scale. -/
theorem Bare.scaleHasPrecision {b : Builtin} (h : Bare m b) : ScaleHasPrecision m :=
  fun _ => h.unparameterized.2.1

/-- A bare mapping is well formed throughout. -/
theorem Bare.throughout {b : Builtin} (h : Bare m b) : c.WellFormedThroughout m :=
  h.shows.throughout h.scaleHasPrecision

/-- A scalar store type gives no scale without a precision. -/
theorem scaleHasPrecision_of_scalarNamed? {store : List Char} (h : scalarNamed? store = some m) :
    ScaleHasPrecision m := by
  obtain ⟨b, rfl⟩ := exists_of_scalarNamed? h
  have hb : ScaleHasPrecision b.mapping := by cases b <;> exact fun _ => rfl
  exact hb.withStoreFacets store

/-- A host type under a scalar store type has no scale without a precision. -/
theorem scaleHasPrecision_of_scalarPair? {type : HostType} {store : List Char} {byStore : Mapping}
    (hstore : scalarNamed? store = some byStore) (h : scalarPair? type store byStore = some m) :
    ScaleHasPrecision m := by
  have hbyStore := scaleHasPrecision_of_scalarNamed? hstore
  rcases scalarPair?_cases h with ⟨-, rfl⟩ | ⟨-, -, rfl⟩ | ⟨byType, hbyType, rfl⟩
  · exact hbyStore
  · exact hbyStore
  · obtain ⟨b, hb⟩ := bare_of_ofHostType? hbyType
    exact hb.scaleHasPrecision.withStoreFacets store

/-! ## Options and enumerations -/

/-- A mapping stays well formed for values that may be absent. -/
theorem WellFormedThroughout.nullable (h : c.WellFormedThroughout m)
    (hstore : (nullable m).storeType = m.storeType) : c.WellFormedThroughout (nullable m) := by
  have hm : c.WellFormed m := h m .whole
  have hkind : (Catalog.nullable m).kind = m.kind := rfl
  refine h.of_kind rfl ?_
  unfold WellFormed at hm ⊢
  rw [hkind]
  cases hm' : m.kind with
  | scalar kind =>
    rw [hm'] at hm
    exact ScalarForm.of_eq hm hstore rfl rfl rfl
  | array element shape materialized =>
    rw [hm'] at hm
    exact ⟨hm.type, hm.flat, hstore ▸ hm.storeType⟩
  | struct fields =>
    rw [hm'] at hm
    obtain ⟨htype, htokens⟩ := hm
    exact ⟨htype, hstore ▸ htokens⟩

/-- The mapping of an enumeration is as well formed as that of its integers. -/
theorem WellFormedThroughout.enum {e : EnumType} {u : Mapping} (hu : Resolves c k u)
    (h : c.WellFormedThroughout u) (hm : enumMapping? (.enum e) (some u) = some m) :
    c.WellFormedThroughout m := by
  obtain ⟨hinteger, rfl⟩ := enumMapping?_some hm
  obtain ⟨kind, hkind⟩ : ∃ kind, u.kind = .scalar kind :=
    (storesIntegers_of_resolves hu hinteger).elim (⟨_, ·⟩) (⟨_, ·⟩)
  have hform : c.WellFormed u := h u .whole
  rw [WellFormed, hkind] at hform
  exact throughout_scalar hkind (ScalarForm.of_eq hform rfl rfl rfl rfl)

/-! ## Arrays -/

/-- An array is well formed throughout when its elements are. -/
theorem WellFormedThroughout.array {settings : Settings} {element : Mapping} {l : ListType}
    (h : c.WellFormedThroughout element) (hm : arrayMapping? settings element l = some m) :
    c.WellFormedThroughout m := by
  have hflat := arrayMapping?_element hm
  have hshape : l.shape.isMultiDimensional = false := by
    unfold arrayMapping? at hm
    split at hm
    next => cases hm
    next =>
      split at hm
      next => cases hm
      next hshape => simpa using hshape
  obtain rfl := arrayMapping?_some hm
  have hform : (Mapping.array element l settings.materialization).ArrayForm element :=
    ⟨⟨l, rfl, hshape⟩, hflat, String.toList_ofList⟩
  refine WellFormed.throughout hform ?_ nofun
  rintro _ _ _ ⟨⟩
  exact h

/-! ## Structs -/

/-- A token of a struct store type stands for the field that is made of it. -/
theorem fieldForm_structField {record : Option RecordType} {token : FieldToken} {mapping : Mapping}
    (hsolid : Solid token.type) (h : Resolves c (Key.ofField record token) mapping) :
    FieldForm c id token (structField record token mapping) := by
  have hkey : (Key.ofField record token).store = some token.type := by
    rw [Key.ofField, keyOf_solid _ hsolid]
  obtain ⟨m₀, hm₀, hstored⟩ := exists_alone h hkey
  refine ⟨?_, m₀, ?_, ?_⟩
  · rw [structField_name, String.toList_ofList]
    rfl
  · rw [resolveStoreType, resolve, Option.map_some, String.toList_ofList, keyOf_solid none hsolid,
      hm₀]
  · rw [structField_mapping, hstored.storeType]

/-- A struct that is known by its store type is well formed throughout when its fields are. -/
theorem throughout_struct {record : Option RecordType} {store : List Char}
    {tokens : List FieldToken} {mapping : FieldToken → Mapping}
    (hparse : parse? store = some (.struct tokens))
    (h : ∀ token ∈ tokens, Resolves c (Key.ofField record token) (mapping token))
    (hfields : ∀ token ∈ tokens, c.WellFormedThroughout (mapping token)) :
    c.WellFormedThroughout (.struct (tokenFields record mapping tokens)
      (some (String.ofList store)) (structType record (tokenFields record mapping tokens))) := by
  have hstore : (Mapping.struct (tokenFields record mapping tokens) (some (String.ofList store))
      (structType record (tokenFields record mapping tokens))).storeType.toList = store :=
    String.toList_ofList
  have hform : StructForm c (.struct (tokenFields record mapping tokens)
      (some (String.ofList store)) (structType record (tokenFields record mapping tokens)))
        (tokenFields record mapping tokens) := by
    refine ⟨by cases record <;> exact ⟨_, rfl⟩, id, tokens, .inl rfl, by rw [hstore, hparse], ?_⟩
    refine List.forall₂_map_right_iff.mpr (List.forall₂_same.mpr fun token ht => ?_)
    exact fieldForm_structField (solid_of_parse? hparse _ (List.mem_map_of_mem ht)) (h token ht)
  refine WellFormed.throughout hform nofun ?_
  rintro _ ⟨⟩ f hf
  obtain ⟨token, ht, rfl⟩ := List.mem_map.mp hf
  rw [structField_mapping]
  exact hfields token ht

/-- The struct written for a composite record is well formed throughout when its fields are. -/
theorem throughout_record {r : RecordType}
    (hfield : ∀ f ∈ defaultFields c r, ReadsBack c f.type f.mapping)
    (h : ∀ f ∈ defaultFields c r, c.WellFormedThroughout f.mapping) :
    c.WellFormedThroughout (.struct (defaultFields c r) none (.record r)) := by
  have hstore : (Mapping.struct (defaultFields c r) none (.record r)).storeType.toList =
      structOf ((defaultFields c r).map written) := String.toList_ofList
  have hform : StructForm c (.struct (defaultFields c r) none (.record r)) (defaultFields c r) := by
    refine ⟨⟨r, rfl⟩, readName, _, .inr ⟨rfl, rfl⟩, hstore ▸ parse?_record hfield, ?_⟩
    refine List.forall₂_map_left_iff.mpr (List.forall₂_same.mpr fun f hf => ?_)
    obtain ⟨m₀, hm₀, hsame, -, -⟩ := (hfield f hf).alone
    refine ⟨rfl, m₀, ?_, hsame⟩
    rw [resolveStoreType, resolve, Option.map_some, String.toList_ofList, readField, written,
      keyOf_nameless none (hfield f hf).nameless, hm₀]
  refine WellFormed.throughout hform ?_ ?_
  · rintro _ _ _ ⟨⟩
  · rintro _ ⟨⟩ f hf
    exact h f hf

/-! ## All mappings -/

/-- The default mapping of a host type is well formed throughout. -/
theorem throughout_of_resolveKey {t : HostType} (h : c.resolveKey ⟨some t, none⟩ = some m) :
    c.WellFormedThroughout m := by
  refine resolveKey_induction (motive := fun _ m => c.WellFormedThroughout m)
    (fun s => (bare_ofScalar s).throughout) ?_ ?_ ?_ (fun _ _ _ ih hm => ih.array hm) ?_ h
  · intro inner m hm ih
    exact ih.nullable (storeType_nullable (resolves_of_resolveKey hm))
  · intro e u m hu ih hm
    exact ih.enum (resolves_of_resolveKey hu) hm
  · have hbare : Bare (Builtin.bytes.mapping.withType (.arrayOf (.scalar .u8))) .bytes :=
      ⟨rfl, rfl, rfl, rfl, rfl⟩
    exact hbare.throughout
  · intro r ih
    refine throughout_record (fun f hf => ?_) ih
    obtain ⟨member, -, hem, hfe⟩ := exists_member_of_defaultFields hf
    rw [hfe]
    exact readsBack_of_resolveKey hem

/-- A mapping that is found by a store type is well formed throughout. -/
theorem throughout_of_resolves (h : Resolves c k m) {store : List Char}
    (hk : k.store = some store) : c.WellFormedThroughout m := by
  induction h generalizing store with
  | option h ih => exact (ih hk).nullable (storeType_nullable h)
  | enum h hm ih => exact (ih hk).enum h hm
  | @struct record _ _ _ hparse h ih =>
    refine throughout_struct hparse h fun token ht => ?_
    have hsolid := solid_of_parse? hparse _ (List.mem_map_of_mem ht)
    exact ih token ht (by rw [Key.ofField, keyOf_solid _ hsolid])
  | array hparse h hm ih =>
    have hsolid := solid_of_parse? hparse _ (List.mem_singleton_self _)
    exact (ih (by rw [keyOf_solid _ hsolid])).array hm
  | named hm =>
    obtain ⟨b, rfl⟩ := exists_of_scalarNamed? hm
    exact ((shows_builtin b).withStoreFacets _).throughout (scaleHasPrecision_of_scalarNamed? hm)
  | pair hstore hm =>
    obtain ⟨-, -, b, hb⟩ := storeType_of_scalarPair? hstore hm
    exact hb.throughout (scaleHasPrecision_of_scalarPair? hstore hm)
  | record => cases hk
  | list => cases hk
  | builtin => cases hk

/-- Every mapping that a catalog finds, and every mapping nested in it, is well formed. -/
theorem wellFormed_of_resolve {type : Option HostType} {store : Option String}
    (h : c.resolve type store = some m) {part : Mapping} (hpart : Within part m) :
    c.WellFormed part := by
  refine (?_ : c.WellFormedThroughout m) part hpart
  rw [resolve] at h
  generalize Key.of type (store.map String.toList) = k at h
  obtain ⟨type, store⟩ := k
  cases store with
  | some _ => exact throughout_of_resolves (resolves_of_resolveKey h) rfl
  | none =>
    cases type with
    | some _ => exact throughout_of_resolveKey h
    | none =>
      rw [resolveKey_none] at h
      cases h

section Examples

/-- A record whose member is a list of decimals. -/
def ledger : RecordType := ⟨"Ledger", false, [⟨"sums", .listOf (.scalar .decimal), true, true⟩]⟩

/-- The decimals in a list in a struct show their facets, under the name of their kind. -/
theorem wellFormed_of_resolve_ledger :
    ∃ m part, (default : Catalog).resolve (some (.option (.record ledger)))
        (some " struct<Sums array<decimal( 10,2 )>> ") = some m ∧
      m.storeType = "struct<Sums array<decimal( 10,2 )>>" ∧
      Within part m ∧ part.storeType = "NUMERIC(10, 2)" ∧
      (default : Catalog).WellFormed m ∧ (default : Catalog).WellFormed part := by
  have hparse : parse? "struct<Sums array<decimal( 10,2 )>>".toList =
      some (.struct [⟨"Sums".toList, "array<decimal( 10,2 )>".toList⟩]) := by decide
  have helement : parse? "array<decimal( 10,2 )>".toList =
      some (.array "decimal( 10,2 )".toList) := by decide
  have hdecimal : (default : Catalog).resolveKey
      (Key.of (some (.scalar .decimal)) (some "decimal( 10,2 )".toList)) =
        some (Builtin.numeric.mapping.withStoreFacets "decimal( 10,2 )".toList) := by
    have hscalar : parse? "decimal( 10,2 )".toList = none := by decide
    exact (resolveKey_pair hscalar (by simp) (by simp)).trans rfl
  have hfield : (default : Catalog).resolveKey
      (Key.ofField (some ledger) ⟨"Sums".toList, "array<decimal( 10,2 )>".toList⟩) = _ :=
    resolveKey_array (some ⟨.scalar .decimal, .list⟩) helement hdecimal rfl
  have hm := resolveKey_struct (c := default) (some ledger) hparse <| by
    simp only [List.forall_mem_cons, List.not_mem_nil, false_implies, implies_true, and_true,
      hfield, fieldMapping_eq hfield]
  simp only [tokenFields, List.map_cons, List.map_nil, fieldMapping_eq hfield] at hm
  have hresolve : (default : Catalog).resolve (some (.option (.record ledger)))
      (some " struct<Sums array<decimal( 10,2 )>> ") = some (nullable _) :=
    (resolveKey_option _ _).trans (congrArg (Option.map nullable) hm)
  refine ⟨_, Builtin.numeric.mapping.withStoreFacets "decimal( 10,2 )".toList, hresolve, rfl,
    ?hpart, rfl, wellFormed_of_resolve hresolve .whole, wellFormed_of_resolve hresolve ?hpart⟩
  exact .field rfl (List.mem_singleton_self _) (.element rfl .whole)

end Examples

end Catalog

end TypedSql
