import TypedSql.Proofs.Catalog.WellFormed
import TypedSql.Proofs.Literal.Rerendering
import TypedSql.Proofs.StoreType.Acceptance

/-!
# Store types that are found again

The store type that a mapping reports is a fixed point: looked up again it gives a mapping with the
same store type, which does the same with every value. However a scalar type was spelled, its
canonical name with the facets that count is left; an array is spelled from its element; a struct
keeps its text.
-/

namespace TypedSql

open Literal StoreType Text

/-! ## Mappings that do the same -/

/-- Two mappings that nothing tells apart: of the same types, with the same literals, the same
values sent and the same parameters. -/
structure Interchangeable (m m₂ : Mapping) : Prop where
  storeType : m₂.storeType = m.storeType
  type : m₂.type = m.type
  wireType : WireType.ofMapping m₂ = WireType.ofMapping m
  literal : ∀ v, literal m₂ v = literal m v
  value : ∀ v, Wire.value m₂ v = Wire.value m v
  tag : ∀ settings p, Parameter.tag settings m₂ p = Parameter.tag settings m p

namespace Interchangeable

variable {m m₂ : Mapping}

/-- Every mapping does what it does. -/
theorem refl (m : Mapping) : Interchangeable m m :=
  ⟨rfl, rfl, rfl, fun _ => rfl, fun _ => rfl, fun _ _ => rfl⟩

/-- Neither of two mappings is told apart from the other. -/
theorem symm (h : Interchangeable m m₂) : Interchangeable m₂ m :=
  ⟨h.storeType.symm, h.type.symm, h.wireType.symm, fun v => (h.literal v).symm,
    fun v => (h.value v).symm, fun settings p => (h.tag settings p).symm⟩

/-- Mappings of the same parameters configure the same. -/
theorem configure (h : Interchangeable m m₂) (settings : Settings) (p : Parameter) :
    p.configure settings m₂ = p.configure settings m := by
  rw [Parameter.configure, Parameter.configure, h.value, h.tag]

/-- Mappings that write the same literals render the same. -/
theorem render (h : Interchangeable m m₂) (v : Value) : render m₂ v = render m v := by
  rw [Literal.render, Literal.render, h.literal]

/-- The facets of a scalar that is no decimal show nowhere but in its store type. -/
theorem facets {kind : ScalarKind} (hkind : m.kind = .scalar kind)
    (hdecimal : m.kind.isDecimal = false) (f : Facets) :
    Interchangeable m { m with facets := f } := by
  obtain ⟨storeType, type, _, facets, converter, comparer⟩ := m
  cases hkind
  refine ⟨rfl, rfl, rfl, fun v => ?_, fun v => ?_, fun settings p => ?_⟩
  · rfl
  · rfl
  · rw [Parameter.tag, Parameter.tag, hdecimal]
    rfl

/-- Arrays of elements that nothing tells apart are not told apart either. -/
theorem array (h : Interchangeable m m₂) (convention : Shape) :
    Interchangeable (.array m ⟨m.type, .list⟩ convention)
      (.array m₂ ⟨m₂.type, .list⟩ convention) := by
  have hstore : (Mapping.array m₂ ⟨m₂.type, .list⟩ convention).storeType =
      (Mapping.array m ⟨m.type, .list⟩ convention).storeType := by
    simp only [Mapping.array, h.storeType]
  have hmismatch (w : Value) : (Mapping.array m₂ ⟨m₂.type, .list⟩ convention).mismatch w =
      (Mapping.array m ⟨m.type, .list⟩ convention).mismatch w := by
    simp only [Mapping.mismatch, hstore]
  have hprepare (v : Value) : (Mapping.array m₂ ⟨m₂.type, .list⟩ convention).prepare v =
      (Mapping.array m ⟨m.type, .list⟩ convention).prepare v := Mapping.prepare_congr rfl v
  refine ⟨hstore, by simp only [Mapping.array, h.type], congrArg WireType.array h.wireType,
    fun v => ?_, fun v => ?_, fun settings p => ?_⟩
  · have hitems : Literal.literal m₂ = Literal.literal m := funext h.literal
    have hprefix : (Mapping.array m₂ ⟨m₂.type, .list⟩ convention).literalStoreType =
        (Mapping.array m ⟨m.type, .list⟩ convention).literalStoreType := by
      simp only [Mapping.literalStoreType, hstore]
    have hprepared := hprepare v
    simp only [Mapping.array] at hmismatch hprefix hprepared ⊢
    simp only [Literal.literal, hprepared, hmismatch, hprefix, hitems]
  · have hitems : Wire.value m₂ = Wire.value m := funext h.value
    have hprepared := hprepare v
    simp only [Mapping.array] at hmismatch hprepared ⊢
    simp only [Wire.value, hprepared, hmismatch, hitems]
  · have hwire : WireType.ofMapping (Mapping.array m₂ ⟨m₂.type, .list⟩ convention) =
        WireType.ofMapping (Mapping.array m ⟨m.type, .list⟩ convention) :=
      congrArg WireType.array h.wireType
    have htag (element : Mapping) (l : ListType) : p.tag settings (.array element l convention) =
        { p with wireType := some (.ofMapping (.array element l convention)) } := rfl
    rw [htag, htag, hwire]

end Interchangeable

namespace Catalog

variable {c : Catalog} {m : Mapping}

/-! ## Scalars -/

/-- The canonical name of a built-in store type with facets names its mapping with these facets. -/
theorem scalarNamed?_withFacets (b : Builtin) (p : UInt32) (scale : Option UInt32) :
    scalarNamed? (StoreType.withFacets b.mapping.storeType.toList (some p) scale) =
      some (b.mapping.withStoreFacets
        (StoreType.withFacets b.mapping.storeType.toList (some p) scale)) := by
  have hbase := isTableName_builtin b
  have hopen : '(' ∈ StoreType.withFacets b.mapping.storeType.toList (some p) scale := by
    cases scale <;> simp [StoreType.withFacets]
  have hnot : Builtin.named? (StoreType.withFacets b.mapping.storeType.toList (some p) scale) =
      none := by
    by_contra hsome
    have hname : IsTableName (StoreType.withFacets b.mapping.storeType.toList (some p) scale) :=
      Option.isSome_iff_ne_none.mpr hsome
    exact absurd (hname.chars.2 '(' hopen) (by decide)
  have hlength : b.mapping.storeType.toList.length ≠
      (StoreType.withFacets b.mapping.storeType.toList (some p) scale).length := by
    cases scale <;> simp [StoreType.withFacets]
  rw [scalarNamed?, hnot]
  simp only [hbase.isBaseName.baseName_withFacets, if_neg hlength, named?_builtin, Option.map_some]

/-- The store type of a scalar names a mapping that does the same. -/
theorem exists_scalarNamed?_again (b : Builtin) (store : List Char) :
    ∃ m₂, scalarNamed? (b.mapping.withStoreFacets store).storeType.toList = some m₂ ∧
      Interchangeable (b.mapping.withStoreFacets store) m₂ := by
  have hbase := (shows_builtin b).baseStoreType
  have hcomposite : b.mapping.kind.isComposite = false := by cases b <;> rfl
  cases hfacets : facets? store with
  | none =>
    have hm : b.mapping.withStoreFacets store = b.mapping := by
      rw [Mapping.withStoreFacets, hfacets]
    rw [hm]
    exact ⟨_, scalarNamed?_builtin b, .refl _⟩
  | some facets =>
    obtain ⟨first, second⟩ := facets
    have hread (scale : Option UInt32) :=
      (isTableName_builtin b).isBaseName.facets?_withFacets first scale
    by_cases hsized : b.mapping.kind.isSized = true
    · -- the size is written, and a second facet is not
      have hstore : (b.mapping.withStoreFacets store).storeType.toList =
          StoreType.withFacets b.mapping.storeType.toList (some first) none := by
        simp [Mapping.withStoreFacets, Mapping.withFacets, hfacets, hcomposite, hsized, hbase]
      rw [hstore, scalarNamed?_withFacets]
      refine ⟨_, rfl, ?_⟩
      simp only [Mapping.withStoreFacets, hfacets, hread, hsized, if_true]
      exact .refl _
    · by_cases hdecimal : b.mapping.kind.isDecimal = true
      · have hstore : (b.mapping.withStoreFacets store).storeType.toList =
            StoreType.withFacets b.mapping.storeType.toList (some first) second := by
          simp [Mapping.withStoreFacets, Mapping.withFacets, hfacets, hcomposite, hsized, hdecimal,
            hbase]
        rw [hstore, scalarNamed?_withFacets]
        refine ⟨_, rfl, ?_⟩
        simp only [Mapping.withStoreFacets, hfacets, hread]
        exact .refl _
      · -- the facets are not written, so they are lost
        have hm : b.mapping.withStoreFacets store =
            { b.mapping with facets := (b.mapping.withStoreFacets store).facets } := by
          simp [Mapping.withStoreFacets, Mapping.withFacets, hfacets, hcomposite, hsized, hdecimal,
            hbase]
        obtain ⟨kind, hkind⟩ : ∃ kind, b.mapping.kind = .scalar kind := by
          cases b <;> exact ⟨_, rfl⟩
        rw [hm]
        refine ⟨_, scalarNamed?_builtin b, ?_⟩
        exact (Interchangeable.facets hkind (by simpa using hdecimal) _).symm

/-! ## All store types -/

section Alone

variable {store : List Char}

/-- An array store type is looked up by its element. -/
theorem resolveKey_arrayAlone {element : List Char}
    (hparse : parse? store = some (.array element)) : c.resolveKey ⟨none, some store⟩ =
      (c.resolveKey (Key.of none (some element))).bind fun em =>
        arrayMapping? c.settings em ⟨em.type, .list⟩ := by
  have hbuild : Id.run (buildComposite c.settings ⟨none, some store⟩ (plain c _)) =
      (c.resolveKey (Key.of none (some element))).bind fun em =>
        arrayMapping? c.settings em ⟨em.type, .list⟩ :=
    congrArg Id.run (buildComposite_array none hparse (plain c _))
  cases hm : (c.resolveKey (Key.of none (some element))).bind fun em =>
      arrayMapping? c.settings em ⟨em.type, .list⟩ with
  | some m => exact resolveKey_of_buildComposite (by simp) (hbuild.trans hm)
  | none =>
    rw [resolveKey_of_buildScalar (by simp) (hbuild.trans hm)]
    cases hnamed : scalarNamed? store with
    | none => exact hnamed
    | some m => simp [parse?_of_scalarNamed? hnamed] at hparse

/-- A struct keeps the text of its store type. -/
theorem storeType_of_parse?_struct {tokens : List FieldToken}
    (hparse : parse? store = some (.struct tokens))
    (h : c.resolveKey ⟨none, some store⟩ = some m) : m.storeType.toList = store := by
  have hresolves := resolves_of_resolveKey h
  generalize hk : (⟨none, some store⟩ : Key) = k at hresolves
  cases hresolves with
  | struct =>
    obtain rfl := Option.some.inj (Key.mk.inj hk).2
    exact String.toList_ofList
  | array hother =>
    obtain rfl := Option.some.inj (Key.mk.inj hk).2
    simp [hparse] at hother
  | named hm =>
    obtain rfl := Option.some.inj (Key.mk.inj hk).2
    simp [parse?_of_scalarNamed? hm] at hparse
  | _ => cases hk

/-- The store type of a mapping that is found alone stands for one type wherever it is put, and a
mapping that does the same is found by it. -/
theorem exists_resolveKey_again (hsolid : Solid store)
    (h : c.resolveKey ⟨none, some store⟩ = some m) : SelfContained m.storeType.toList ∧
      ∃ m₂, c.resolveKey ⟨none, some m.storeType.toList⟩ = some m₂ ∧ Interchangeable m m₂ := by
  induction hn : store.length using Nat.strong_induction_on generalizing store m with
  | _ n ih =>
    subst hn
    cases hparse : parse? store with
    | none =>
      rw [resolveKey_named hparse] at h
      obtain ⟨b, rfl⟩ := exists_of_scalarNamed? h
      have hshows := (shows_builtin b).withStoreFacets store
      obtain ⟨precision, scale, htext⟩ :=
        storeType_withFacets b (b.mapping.withStoreFacets store).facets
      rw [← hshows.storeType] at htext
      have hself := selfContained_withFacets (isTableName_builtin b) precision scale
      obtain ⟨m₂, hm₂, hsame⟩ := exists_scalarNamed?_again b store
      refine ⟨htext ▸ hself, m₂, ?_, hsame⟩
      rw [resolveKey_named (parse?_of_scalarNamed? hm₂), hm₂]
    | some composite =>
      cases composite with
      | struct tokens =>
        rw [storeType_of_parse?_struct hparse h]
        refine ⟨?_, m, h, .refl m⟩
        have hself := selfContained_of_parse?_struct hparse
        rwa [hsolid.trimmed] at hself
      | array element =>
        rw [resolveKey_arrayAlone hparse] at h
        obtain ⟨em, hem, hm⟩ := Option.bind_eq_some_iff.mp h
        have helement : Solid element :=
          solid_of_parse? hparse element (List.mem_singleton_self element)
        have hshorter : element.length < store.length := by
          simpa [hsolid.trimmed] using parse?_array_length hparse
        rw [keyOf_solid none helement] at hem
        obtain ⟨hself, em₂, hem₂, hsame⟩ := ih _ hshorter helement hem rfl
        have hm₂ := arrayMapping?_of_wireType hsame.wireType hm
        obtain rfl := arrayMapping?_some hm
        have hstore (convention : Shape) :
            (Mapping.array em ⟨em.type, .list⟩ convention).storeType.toList =
              arrayOf em.storeType.toList := String.toList_ofList
        rw [hstore]
        refine ⟨.arrayOf (hself.passes.mono (Nat.zero_le 1)), _, ?_, hsame.array _⟩
        have helement₂ : Solid em.storeType.toList := ⟨hself.ne_nil, hself.trimmed⟩
        rw [← keyOf_solid none helement₂] at hem₂
        exact resolveKey_array none (parse?_arrayOf hself) hem₂ hm₂

end Alone

/-- The store type that a mapping reports is a fixed point: it is found again, by a mapping of the
same store type, host type and wire type that renders, sends and configures every value in the same
way. -/
theorem resolve_storeType_again {store : String} (h : c.resolveStoreType store = some m) :
    ∃ m₂, c.resolveStoreType m.storeType = some m₂ ∧ m₂.storeType = m.storeType ∧
      m₂.type = m.type ∧ WireType.ofMapping m₂ = WireType.ofMapping m ∧
      (∀ v, render m₂ v = render m v ∧ Wire.value m₂ v = Wire.value m v) ∧
      ∀ settings p, Parameter.tag settings m₂ p = Parameter.tag settings m p ∧
        Parameter.configure settings m₂ p = Parameter.configure settings m p := by
  rw [resolveStoreType, resolve, Option.map_some] at h
  have hne : trim store.toList ≠ [] := by
    intro hblank
    have hkey : Key.of none (some store.toList) = ⟨none, none⟩ := by simp [Key.of, hblank]
    rw [hkey, resolveKey_none] at h
    cases h
  have hkey : Key.of none (some store.toList) = ⟨none, some (trim store.toList)⟩ := by
    simp [Key.of, hne]
  rw [hkey] at h
  obtain ⟨hself, m₂, hm₂, hsame⟩ := exists_resolveKey_again (solid_trim hne) h
  refine ⟨m₂, ?_, hsame.storeType, hsame.type, hsame.wireType,
    fun v => ⟨hsame.render v, hsame.value v⟩,
    fun settings p => ⟨hsame.tag settings p, hsame.configure settings p⟩⟩
  rw [resolveStoreType, resolve, Option.map_some,
    keyOf_solid none ⟨hself.ne_nil, hself.trimmed⟩, hm₂]

/-- An array of integers with a facet that does not count. -/
theorem resolve_storeType_again_integers :
    ∃ m m₂, (default : Catalog).resolveStoreType " Array< integer( 5 ) >" = some m ∧
      m.storeType = "ARRAY<INT64>" ∧
      (default : Catalog).resolveStoreType "ARRAY<INT64>" = some m₂ ∧
      ∀ v, render m₂ v = render m v ∧ Wire.value m₂ v = Wire.value m v := by
  have hparse : parse? "Array< integer( 5 ) >".toList = some (.array "integer( 5 )".toList) := by
    decide
  have helement : (default : Catalog).resolveKey (Key.of none (some "integer( 5 )".toList)) =
      some (Builtin.int64.mapping.withStoreFacets "integer( 5 )".toList) := by
    have hscalar : parse? "integer( 5 )".toList = none := by decide
    exact (resolveKey_named hscalar).trans rfl
  have hm : (default : Catalog).resolveStoreType " Array< integer( 5 ) >" = some _ :=
    resolveKey_array none hparse helement rfl
  obtain ⟨m₂, hm₂, -, -, -, hvalues, -⟩ := resolve_storeType_again hm
  exact ⟨_, m₂, hm, rfl, hm₂, hvalues⟩

end Catalog

end TypedSql
