import TypedSql.Proofs.Catalog.Facets

/-!
# Store types alone

A host type decides how values are converted, and never what they are stored as: its mapping under
a store type has the store type and the wire type of the mapping that the store type has alone. A
blank store type counts as none, so it has no mapping alone.
-/

namespace TypedSql

open Text StoreType

/-- Arrays. -/
def WireType.isArray : WireType → Bool
  | .array _ => true
  | _ => false

/-- The wire type of an array is an array. -/
theorem WireType.isArray_ofMapping (m : Mapping) : (ofMapping m).isArray = m.isArray := by
  obtain ⟨storeType, type, kind, facets, converter, comparer⟩ := m
  cases kind with
  | scalar kind =>
    rw [ofMapping]
    cases kind with
    | decimal =>
      rw [ofScalar]
      split <;> rfl
    | _ => rfl
  | array => rfl
  | struct => rfl

namespace Catalog

variable {c : Catalog} {k : Key} {m m₀ : Mapping}

/-! ## Host types of mappings -/

/-- The default mapping of a host type stored as a scalar is for that type, which is no option. -/
theorem type_of_ofHostType? {type : HostType} (h : Builtin.ofHostType? type = some m) :
    m.type = type ∧ type.unwrapOption = type := by
  unfold Builtin.ofHostType? at h
  split at h
  next s =>
    obtain rfl := Option.some.inj h
    cases s <;> exact ⟨rfl, rfl⟩
  next =>
    obtain rfl := Option.some.inj h
    exact ⟨rfl, rfl⟩
  next => cases h

/-- The mapping of a host type under a scalar store type is for that type, which is no option. -/
theorem type_of_scalarPair? {type : HostType} {store : List Char} {byStore : Mapping}
    (hstore : scalarNamed? store = some byStore) (h : scalarPair? type store byStore = some m) :
    m.type = type ∧ type.unwrapOption = type := by
  rcases scalarPair?_cases h with ⟨htype, rfl⟩ | ⟨-, hcomposite, rfl⟩ | ⟨byType, hbyType, rfl⟩
  · obtain ⟨b, hb, -, -⟩ := scalarNamed?_alike hstore
    rw [← htype, hb]
    exact ⟨rfl, by cases b <;> rfl⟩
  · refine ⟨rfl, ?_⟩
    cases type with
    | option => simp [HostType.isRecord, HostType.isList] at hcomposite
    | _ => rfl
  · obtain ⟨htype, hoption⟩ := type_of_ofHostType? hbyType
    exact ⟨(Mapping.withStoreFacets_alike byType store).1.trans htype, hoption⟩

/-- A mapping is for the host type that it was looked up by, without its option wrappers. -/
theorem type_of_resolves (h : Resolves c k m) {t : HostType} (ht : k.type = some t) :
    m.type = t.unwrapOption := by
  induction h generalizing t with
  | @option inner _ _ _ ih =>
    cases ht
    exact ih (t := inner) rfl
  | enum _ hm =>
    cases ht
    obtain ⟨-, rfl⟩ := enumMapping?_some hm
    rfl
  | @struct record =>
    cases record with
    | none => cases ht
    | some r =>
      cases ht
      rfl
  | record =>
    cases ht
    rfl
  | @array list _ _ _ _ _ _ hm =>
    cases list with
    | none => cases ht
    | some l =>
      cases ht
      obtain rfl := arrayMapping?_some hm
      rfl
  | list _ _ hm =>
    cases ht
    obtain rfl := arrayMapping?_some hm
    rfl
  | named => cases ht
  | pair hstore hm =>
    cases ht
    obtain ⟨htype, hoption⟩ := type_of_scalarPair? hstore hm
    exact htype.trans hoption.symm
  | builtin hm =>
    cases ht
    obtain ⟨htype, hoption⟩ := type_of_ofHostType? hm
    exact htype.trans hoption.symm

/-! ## Facets -/

/-- The mapping of a host type under a scalar store type differs from that of the store type in
nothing that shows in the store type. -/
theorem storeType_of_scalarPair? {type : HostType} {store : List Char} {byStore : Mapping}
    (hstore : scalarNamed? store = some byStore) (h : scalarPair? type store byStore = some m) :
    m.kind = byStore.kind ∧ m.storeType = byStore.storeType ∧ ∃ b, Shows m b := by
  obtain ⟨b, rfl⟩ := exists_of_scalarNamed? hstore
  have hshows := (shows_builtin b).withStoreFacets store
  unfold scalarPair? at h
  split at h
  next =>
    cases h
    exact ⟨rfl, rfl, b, hshows⟩
  next =>
    split at h
    next =>
      cases h
      exact ⟨rfl, rfl, b, hshows.of_eq rfl rfl rfl⟩
    next =>
      obtain ⟨byType, hbyType, h⟩ := Option.bind_eq_some_iff.mp h
      split at h
      next hsame =>
        cases h
        obtain ⟨b', hb'⟩ := bare_of_ofHostType? hbyType
        rw [hb'.shows.baseStoreType, hshows.baseStoreType] at hsame
        obtain rfl := eq_of_sameName hsame
        have hshows' := hb'.shows.withStoreFacets store
        exact ⟨hshows'.kind.trans hshows.kind.symm, hb'.storeType_withStoreFacets store, _, hshows'⟩
      next => cases h

/-- Every scalar mapping that is found shows its facets. -/
theorem shows_of_resolves (h : Resolves c k m) :
    m.kind.isComposite = true ∨ ∃ b, Shows m b := by
  induction h with
  | option _ ih => exact ih.imp id fun ⟨b, hb⟩ => ⟨b, hb.withFacets _⟩
  | enum _ hm ih =>
    obtain ⟨-, rfl⟩ := enumMapping?_some hm
    exact ih.imp id fun ⟨b, hb⟩ => ⟨b, hb.of_eq rfl rfl rfl⟩
  | struct => exact Or.inl rfl
  | record => exact Or.inl rfl
  | array _ _ hm =>
    obtain rfl := arrayMapping?_some hm
    exact Or.inl rfl
  | list _ _ hm =>
    obtain rfl := arrayMapping?_some hm
    exact Or.inl rfl
  | named hm =>
    obtain ⟨b, rfl⟩ := exists_of_scalarNamed? hm
    exact Or.inr ⟨b, (shows_builtin b).withStoreFacets _⟩
  | pair hstore hm => exact Or.inr (storeType_of_scalarPair? hstore hm).2.2
  | builtin hm =>
    obtain ⟨b, hb⟩ := bare_of_ofHostType? hm
    exact Or.inr ⟨b, hb.shows⟩

/-- The store type of a mapping that is found stays the same for values that may be absent. -/
theorem storeType_nullable (h : Resolves c k m) : (nullable m).storeType = m.storeType := by
  rcases shows_of_resolves h with hcomposite | ⟨b, hb⟩
  · simp [nullable, Mapping.withFacets, hcomposite]
  · exact hb.nullable_storeType_eq

/-! ## Store types alone -/

/-- Values are stored in the same way by two mappings: under the same store type and the same wire
type. -/
structure StoredAs (m m₀ : Mapping) : Prop where
  storeType : m.storeType = m₀.storeType
  wireType : WireType.ofMapping m = WireType.ofMapping m₀

/-- Mappings of the same kind and store type store values in the same way. -/
theorem StoredAs.of_eq (hkind : m.kind = m₀.kind) (hstore : m.storeType = m₀.storeType) :
    StoredAs m m₀ := ⟨hstore, WireType.ofMapping_congr hkind hstore⟩

/-- A mapping that stores in the same way as another follows what that one stores like. -/
theorem StoredAs.trans {m₁ : Mapping} (h : StoredAs m m₁) (h₁ : StoredAs m₁ m₀) : StoredAs m m₀ :=
  ⟨h.storeType.trans h₁.storeType, h.wireType.trans h₁.wireType⟩

/-- The key of a solid store type keeps it. -/
theorem keyOf_solid (type : Option HostType) {s : List Char} (h : Solid s) :
    Key.of type (some s) = ⟨type, some s⟩ := by
  simp [Key.of, h.trimmed, h.ne_nil]

/-- A struct store type has a mapping alone when each of its fields has. -/
theorem exists_struct_alone {record : Option RecordType} {store : List Char}
    {tokens : List FieldToken} {mapping : FieldToken → Mapping} (type : HostType)
    (hparse : parse? store = some (.struct tokens))
    (h : ∀ token ∈ tokens, ∃ m₀, c.resolveKey (Key.ofField none token) = some m₀ ∧
      StoredAs (mapping token) m₀) :
    ∃ m₀, c.resolveKey ⟨none, some store⟩ = some m₀ ∧ StoredAs
      (.struct (tokenFields record mapping tokens) (some (String.ofList store)) type) m₀ := by
  have hfields : ∀ token ∈ tokens,
      c.resolveKey (Key.ofField none token) = some (fieldMapping c none token) ∧
        StoredAs (mapping token) (fieldMapping c none token) := by
    intro token ht
    obtain ⟨m₀, hm₀, hstored⟩ := h token ht
    rw [fieldMapping_eq hm₀]
    exact ⟨hm₀, hstored⟩
  refine ⟨_, resolveKey_struct none hparse fun token ht => (hfields token ht).1, rfl, ?_⟩
  have hwire : WireType.ofFields (tokenFields record mapping tokens) =
      WireType.ofFields (tokenFields none (fieldMapping c none) tokens) := by
    simp only [WireType.ofFields_eq, tokenFields, List.map_map]
    refine List.map_congr_left fun token ht => ?_
    simp only [Function.comp_apply, structField_name, structField_mapping,
      (hfields token ht).2.wireType]
  exact congrArg WireType.struct hwire

/-- Elements that are stored as the elements of some array can stand in an array of their own
type. -/
theorem arrayMapping?_of_wireType {list : ListType} {em em₀ : Mapping}
    (hwire : WireType.ofMapping em₀ = WireType.ofMapping em)
    (hm : arrayMapping? c.settings em list = some m) :
    arrayMapping? c.settings em₀ ⟨em₀.type, .list⟩ =
      some (.array em₀ ⟨em₀.type, .list⟩ c.settings.materialization) := by
  have harray : em₀.isArray = false := by
    rw [← WireType.isArray_ofMapping, hwire, WireType.isArray_ofMapping]
    unfold arrayMapping? at hm
    split at hm
    next => cases hm
    next helement => simpa using helement
  rw [arrayMapping?, harray]
  rfl

/-- An array store type has a mapping alone when its element has. -/
theorem exists_array_alone {list : ListType} {store element : List Char} {em em₀ : Mapping}
    (hparse : parse? store = some (.array element))
    (hem : c.resolveKey (Key.of none (some element)) = some em₀) (hstored : StoredAs em em₀)
    (hm : arrayMapping? c.settings em list = some m) :
    ∃ m₀, c.resolveKey ⟨none, some store⟩ = some m₀ ∧ StoredAs m m₀ := by
  have hm₀ := arrayMapping?_of_wireType hstored.wireType.symm hm
  obtain rfl := arrayMapping?_some hm
  refine ⟨_, resolveKey_array none hparse hem hm₀, ?_, ?_⟩
  · simp only [Mapping.array, hstored.storeType]
  · exact congrArg WireType.array hstored.wireType

/-- A store type under which a mapping is found has one alone that stores values in the same
way. -/
theorem exists_alone (h : Resolves c k m) {store : List Char} (hk : k.store = some store) :
    ∃ m₀, c.resolveKey ⟨none, some store⟩ = some m₀ ∧ StoredAs m m₀ := by
  induction h generalizing store with
  | @option _ _ mapping hinner ih =>
    obtain ⟨m₀, hm₀, hstored⟩ := ih hk
    have hnullable : StoredAs (nullable mapping) mapping :=
      .of_eq rfl (storeType_nullable hinner)
    exact ⟨m₀, hm₀, hnullable.trans hstored⟩
  | @enum e _ underlying _ _ hm ih =>
    obtain ⟨m₀, hm₀, hstored⟩ := ih hk
    obtain ⟨-, rfl⟩ := enumMapping?_some hm
    have hunderlying :
        StoredAs ((underlying.withType (.enum e)).withConverter .enumToNumber) underlying :=
      .of_eq rfl rfl
    exact ⟨m₀, hm₀, hunderlying.trans hstored⟩
  | @struct record _ _ _ hparse _ ih =>
    cases hk
    refine exists_struct_alone _ hparse fun token ht => ?_
    have hsolid := solid_of_parse? hparse _ (List.mem_map_of_mem ht)
    have hkey (record : Option RecordType) :
        (Key.ofField record token).store = some token.type := by
      rw [Key.ofField, keyOf_solid _ hsolid]
    have hnone : Key.ofField none token = ⟨none, some token.type⟩ := keyOf_solid _ hsolid
    rw [hnone]
    exact ih token ht (hkey record)
  | @array list _ element _ _ hparse _ hm ih =>
    cases hk
    have hsolid := solid_of_parse? hparse element (List.mem_singleton_self element)
    have hkey (type : Option HostType) : (Key.of type (some element)).store = some element := by
      rw [keyOf_solid _ hsolid]
    obtain ⟨em₀, hem₀, hstored⟩ := ih (hkey _)
    rw [← keyOf_solid none hsolid] at hem₀
    exact exists_array_alone hparse hem₀ hstored hm
  | named hm =>
    cases hk
    exact ⟨_, (resolveKey_named (parse?_of_scalarNamed? hm)).trans hm, .of_eq rfl rfl⟩
  | pair hstore hm =>
    cases hk
    obtain ⟨hkind, hsame, -⟩ := storeType_of_scalarPair? hstore hm
    exact ⟨_, (resolveKey_named (parse?_of_scalarNamed? hstore)).trans hstore, .of_eq hkind hsame⟩
  | record => cases hk
  | list => cases hk
  | builtin => cases hk

/-- Without a type and a store type there is nothing to look up. -/
theorem resolveKey_none : c.resolveKey ⟨none, none⟩ = none := by
  rw [resolveKey_of_buildScalar (by simp) (by rfl)]
  rfl

/-- A mapping for a host type and a store type is for the host type without its options, and under
a store type that is not blank it stores values as the mapping that the store type has alone. A
blank store type is as good as none: it has no mapping alone, and leaves the host type's own. -/
theorem resolve_alone {type : HostType} {store : String}
    (h : c.resolve (some type) (some store) = some m) :
    m.type = type.unwrapOption ∧
      (trim store.toList ≠ [] → ∃ m₀, c.resolve none (some store) = some m₀ ∧
        m.storeType = m₀.storeType ∧ m.literalStoreType = m₀.literalStoreType ∧
        WireType.ofMapping m = WireType.ofMapping m₀) ∧
      (trim store.toList = [] →
        c.resolve none (some store) = none ∧ c.resolveType type = some m) := by
  have hresolves := resolves_of_resolveKey h
  refine ⟨type_of_resolves hresolves rfl, fun hne => ?_, fun hblank => ?_⟩
  · have hkey (type : Option HostType) :
        Key.of type (some store.toList) = ⟨type, some (trim store.toList)⟩ := by
      simp [Key.of, hne]
    simp only [Option.map_some, hkey] at hresolves
    obtain ⟨m₀, hm₀, hstored⟩ := exists_alone hresolves rfl
    refine ⟨m₀, ?_, hstored.storeType, ?_, hstored.wireType⟩
    · rw [resolve, Option.map_some, hkey, hm₀]
    · rw [Mapping.literalStoreType, Mapping.literalStoreType, hstored.storeType]
  · have hkey (type : Option HostType) : Key.of type (some store.toList) = ⟨type, none⟩ := by
      simp [Key.of, hblank]
    rw [resolve, Option.map_some, hkey] at h ⊢
    exact ⟨resolveKey_none, h⟩

section Examples

/-- A record whose member is stored as a decimal. -/
def tally : RecordType := ⟨"Tally", false, [⟨"total", .scalar .u64, true, true⟩]⟩

/-- An optional record under a struct type with facets. -/
theorem resolve_alone_optional :
    ∃ m m₀, (default : Catalog).resolve (some (.option (.record tally)))
        (some " STRUCT<Total NUMERIC(10, 2)> ") = some m ∧ m.type = .record tally ∧
      (default : Catalog).resolve none (some " STRUCT<Total NUMERIC(10, 2)> ") = some m₀ ∧
      m₀.storeType = "STRUCT<Total NUMERIC(10, 2)>" ∧
      m.storeType = m₀.storeType ∧ m.literalStoreType = m₀.literalStoreType ∧
      WireType.ofMapping m = WireType.ofMapping m₀ := by
  have hparse : parse? "STRUCT<Total NUMERIC(10, 2)>".toList =
      some (.struct [⟨"Total".toList, "NUMERIC(10, 2)".toList⟩]) := by decide
  have hmember : (default : Catalog).resolveKey
      (Key.ofField (some tally) ⟨"Total".toList, "NUMERIC(10, 2)".toList⟩) =
        some (Builtin.ofScalar .u64 |>.withStoreFacets "NUMERIC(10, 2)".toList) := by
    have hscalar : parse? "NUMERIC(10, 2)".toList = none := by decide
    exact (resolveKey_pair hscalar (by simp) (by simp)).trans rfl
  have hm := resolveKey_struct (c := default) (some tally) hparse <| by
    simp only [List.forall_mem_cons, List.not_mem_nil, false_implies, implies_true, and_true,
      hmember, fieldMapping_eq hmember]
  have hresolve : (default : Catalog).resolve (some (.option (.record tally)))
      (some " STRUCT<Total NUMERIC(10, 2)> ") = some (nullable _) :=
    (resolveKey_option _ _).trans (congrArg (Option.map nullable) hm)
  obtain ⟨htype, halone, -⟩ := resolve_alone hresolve
  obtain ⟨m₀, hm₀, hstore, hliteral, hwire⟩ := halone (by decide)
  exact ⟨_, m₀, hresolve, htype, hm₀, hstore.symm.trans rfl, hstore, hliteral, hwire⟩

/-- A blank store type has a mapping with a host type and none alone. -/
theorem exists_resolve_blank :
    (default : Catalog).resolve (some (.scalar .i64)) (some " ") = some Builtin.int64.mapping ∧
      (default : Catalog).resolve none (some " ") = none :=
  ⟨resolveKey_scalarType .i64, resolveKey_none⟩

end Examples

end Catalog

end TypedSql
