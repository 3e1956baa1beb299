import Mathlib.Data.Option.Basic
import TypedSql.Proofs.Catalog.Synthesis
import TypedSql.Proofs.StoreType.Parts
import TypedSql.Proofs.StoreType.TableName

/-!
# Facets and store types stay in step

The store type of every scalar mapping that a catalog finds is the name of a built-in store type
with the facets of the mapping. So writing the facets anew, as is done for values that may be
absent, changes nothing.
-/

namespace TypedSql.Catalog

open Text StoreType

/-! ## Built-in names -/

/-- The store type of a built-in mapping is a table name. -/
theorem isTableName_builtin (b : Builtin) : IsTableName b.mapping.storeType.toList := by
  cases b <;> decide

/-- The name of a built-in mapping names it. -/
theorem named?_builtin (b : Builtin) : Builtin.named? b.mapping.storeType.toList = some b := by
  cases b <;> rfl

/-- Built-in mappings are told apart by their names in any case. -/
theorem eq_of_sameName {b b' : Builtin}
    (h : sameName b.mapping.storeType b'.mapping.storeType = true) : b = b' := by
  have hupper : upper b.mapping.storeType.toList = upper b'.mapping.storeType.toList := eq_of_beq h
  have hsame : Builtin.named? b.mapping.storeType.toList =
      Builtin.named? b'.mapping.storeType.toList := by
    rw [Builtin.named?, Builtin.named?, hupper]
  rw [named?_builtin, named?_builtin] at hsame
  exact Option.some.inj hsame

/-- A built-in mapping with facets shows them behind its name. -/
theorem storeType_withFacets (b : Builtin) (f : Facets) : ∃ precision scale,
    (b.mapping.withFacets f).storeType.toList =
      withFacets b.mapping.storeType.toList precision scale := by
  have hbase : b.mapping.baseStoreType = b.mapping.storeType := by cases b <;> rfl
  rw [Mapping.withFacets, hbase]
  cases b with
  | string | bytes => exact ⟨f.size, none, String.toList_ofList⟩
  | numeric | bigNumeric => exact ⟨f.precision, f.scale, String.toList_ofList⟩
  | _ => exact ⟨none, none, rfl⟩

/-- The store type shows nothing but precision, scale and size. -/
theorem storeType_withFacets_congr (m : Mapping) {f g : Facets}
    (hprecision : f.precision = g.precision) (hscale : f.scale = g.scale) (hsize : f.size = g.size) :
    (m.withFacets f).storeType = (m.withFacets g).storeType := by
  simp only [Mapping.withFacets, hprecision, hscale, hsize]

/-! ## Mappings that show their facets -/

/-- The store type of a scalar mapping is a built-in name with the facets of the mapping. -/
structure Shows (m : Mapping) (b : Builtin) : Prop where
  kind : m.kind = b.mapping.kind
  storeType : m.storeType = (b.mapping.withFacets m.facets).storeType

/-- A built-in mapping shows that it has no facets. -/
theorem shows_builtin (b : Builtin) : Shows b.mapping b := by
  cases b <;> exact ⟨rfl, rfl⟩

namespace Shows

variable {m : Mapping} {b : Builtin}

/-- Without its facets the store type is the built-in name. -/
theorem baseStoreType (h : Shows m b) : m.baseStoreType = b.mapping.storeType := by
  obtain ⟨precision, scale, htext⟩ := storeType_withFacets b m.facets
  rw [Mapping.baseStoreType, h.storeType, htext,
    (isTableName_builtin b).isBaseName.baseName_withFacets, String.ofList_toList]

/-- Other facets are shown instead. -/
theorem withFacets (h : Shows m b) (f : Facets) : Shows (m.withFacets f) b := by
  have hbase := (shows_builtin b).baseStoreType
  refine ⟨h.kind, ?_⟩
  simp only [Mapping.withFacets, h.baseStoreType, h.kind, hbase]
  cases b <;> rfl

/-- The facets of a store type are shown instead. -/
theorem withStoreFacets (h : Shows m b) (store : List Char) :
    Shows (m.withStoreFacets store) b := by
  unfold Mapping.withStoreFacets
  split
  next =>
    split
    next => exact h.withFacets _
    next => exact h.withFacets _
  next => exact h

/-- Another host type and a converter change nothing about the facets. -/
theorem of_eq {m' : Mapping} (h : Shows m b) (hkind : m'.kind = m.kind)
    (hstore : m'.storeType = m.storeType) (hfacets : m'.facets = m.facets) : Shows m' b :=
  ⟨hkind.trans h.kind, by rw [hstore, hfacets, h.storeType]⟩

/-- The store type stays the same for values that may be absent. -/
theorem nullable_storeType_eq (h : Shows m b) : (nullable m).storeType = m.storeType := by
  have hnullable : Shows (nullable m) b := h.withFacets _
  rw [hnullable.storeType, h.storeType]
  exact storeType_withFacets_congr _ rfl rfl rfl

end Shows

/-! ## Bare mappings -/

namespace Bare

variable {m : Mapping} {b : Builtin}

/-- A bare mapping has the facets of a built-in one. -/
theorem facets_eq (h : Bare m b) : m.facets.precision = b.mapping.facets.precision ∧
    m.facets.scale = b.mapping.facets.scale ∧ m.facets.size = b.mapping.facets.size := by
  have hnone : b.mapping.facets = .none := by cases b <;> rfl
  rw [hnone]
  exact h.unparameterized

/-- A bare mapping shows that it has no facets. -/
theorem shows (h : Bare m b) : Shows m b := by
  obtain ⟨hprecision, hscale, hsize⟩ := h.facets_eq
  refine ⟨h.kind, h.storeType.trans ((shows_builtin b).storeType.trans ?_)⟩
  exact (storeType_withFacets_congr _ hprecision hscale hsize).symm

/-- The facets of a store type make the same store type of all bare mappings of a name. -/
theorem storeType_withStoreFacets (h : Bare m b) (store : List Char) :
    (m.withStoreFacets store).storeType = (b.mapping.withStoreFacets store).storeType := by
  obtain ⟨hprecision, hscale, hsize⟩ := h.facets_eq
  unfold Mapping.withStoreFacets
  split
  next first second _ =>
    rw [h.kind]
    split
    next =>
      rw [(h.shows.withFacets _).storeType, ((shows_builtin b).withFacets _).storeType]
      exact storeType_withFacets_congr _ hprecision hscale rfl
    next =>
      rw [(h.shows.withFacets _).storeType, ((shows_builtin b).withFacets _).storeType]
      exact storeType_withFacets_congr _ rfl rfl hsize
  next => exact h.storeType

end Bare

/-- The default mapping of a host type stored as a scalar is bare. -/
theorem bare_of_ofHostType? {type : HostType} {m : Mapping}
    (h : Builtin.ofHostType? type = some m) : ∃ b, Bare m b := by
  unfold Builtin.ofHostType? at h
  split at h
  next s =>
    obtain rfl := Option.some.inj h
    exact ⟨builtinOf s, bare_ofScalar s⟩
  next =>
    obtain rfl := Option.some.inj h
    exact ⟨.bytes, rfl, rfl, rfl, rfl, rfl⟩
  next => cases h

/-! ## Store types by name -/

section Named

variable {store : List Char}

/-- A store type by its name is a built-in one with the facets that the store type shows. -/
theorem exists_of_scalarNamed? {m : Mapping} (h : scalarNamed? store = some m) :
    ∃ b : Builtin, m = b.mapping.withStoreFacets store := by
  unfold scalarNamed? at h
  split at h
  next b hnamed =>
    obtain rfl := Option.some.inj h
    have hname : IsTableName store := Option.isSome_iff_exists.mpr ⟨b, hnamed⟩
    exact ⟨b, by rw [Mapping.withStoreFacets, hname.isBaseName.facets?_eq_none]⟩
  next =>
    extract_lets base at h
    split at h
    next => cases h
    next =>
      obtain ⟨b, -, rfl⟩ := Option.map_eq_some_iff.mp h
      exact ⟨b, rfl⟩

/-- A store type by its name is neither an array nor a struct. -/
theorem parse?_of_scalarNamed? {m : Mapping} (h : scalarNamed? store = some m) :
    parse? store = none := by
  have hcomposite : isComposite (trim store) = false := by
    have hname {s : List Char} (h : IsTableName s) : isComposite s = false :=
      h.isBaseName.isComposite_withFacets none none
    unfold scalarNamed? at h
    split at h
    next b hnamed =>
      have hstore : IsTableName store := Option.isSome_iff_exists.mpr ⟨b, hnamed⟩
      rw [trim_of_forall fun c hc => (hstore.plain c hc).1]
      exact hname hstore
    next =>
      extract_lets base at h
      split at h
      next => cases h
      next =>
        obtain ⟨b, hnamed, -⟩ := Option.map_eq_some_iff.mp h
        have hbase : IsTableName base := Option.isSome_iff_exists.mpr ⟨b, hnamed⟩
        by_contra htrim
        -- the base name of a composite type is all of it
        have hwhole : base = trim store := by
          simp only [base, baseName]
          rw [if_pos (by simpa using htrim)]
        rw [hwhole] at hbase
        exact htrim (hname hbase)
  rw [isComposite, trimStart_of_trim (trim_trim store), Bool.or_eq_false_iff] at hcomposite
  have hstruct : dropIgnoringCase structHead (trim store) = none := by simpa using hcomposite.1
  have harray : dropIgnoringCase arrayHead (trim store) = none := by simpa using hcomposite.2
  rw [parse?, content?, content?, hstruct, harray]

end Named

end TypedSql.Catalog
