import TypedSql.Proofs.Catalog.Alone
import TypedSql.Proofs.Value.Equivalence

/-!
# Comparing with a snapshot

A value equals its snapshot under the comparer of its mapping. Only floats could fail to equal
themselves: those of a value are reached by the comparer of floats, whatever they are inside of, and
those of documents are numbers.
-/

namespace TypedSql

namespace Value

/-- No number in a document inside a value is NaN. -/
inductive NumericDocuments : Value → Prop
  | intro {v : Value} (hjson : ∀ j, v = .json j → j.Numeric)
      (hparts : ∀ w ∈ v.parts, NumericDocuments w) : NumericDocuments v

/-- The documents in a part of a value are in the value. -/
theorem NumericDocuments.of_mem {v w : Value} (h : v.NumericDocuments) (hw : w ∈ v.parts) :
    w.NumericDocuments := by
  obtain ⟨-, hparts⟩ := h
  exact hparts w hw

/-- Values without parts have no documents inside, unless they are documents. -/
theorem numericDocuments_scalar {v : Value} (hjson : ∀ j, v ≠ .json j) (hparts : v.parts = []) :
    v.NumericDocuments := by
  refine .intro (fun j hj => absurd hj (hjson j)) fun w hw => ?_
  rw [hparts] at hw
  exact absurd hw List.not_mem_nil

end Value

namespace Comparer

variable {c : Comparer} {v : Value}

/-! ## Snapshots -/

/-- A snapshot is a copy. -/
theorem snapshot_eq (c : Comparer) (v : Value) : c.snapshot v = v := by
  induction v using Value.induct generalizing c with
  | step v ih =>
    unfold snapshot
    split
    next element items =>
      have hitems : items.map element.snapshot = items.map id :=
        List.map_congr_left fun item hitem => ih item hitem element
      rw [hitems, List.map_id]
    next => rfl

/-! ## Comparers of host types -/

/-- Null equals itself. -/
theorem null_self : c.equals .null .null = true := by
  cases c <;> exact equals_plain rfl .null

/-- The members that a record is compared by are some of its own, each with the comparer of its
type. -/
theorem exists_mem_of_forMembers {members : List Member} {member : String × Comparer}
    (h : member ∈ forMembers members) : ∃ m ∈ members, member = (m.name, forType m.type) := by
  induction members with
  | nil => cases h
  | cons first rest ih =>
    obtain ⟨name, type, readable, writable⟩ := first
    rw [forMembers] at h
    split at h
    next =>
      rcases List.mem_cons.mp h with rfl | h
      · exact ⟨_, List.mem_cons_self .., rfl⟩
      · exact (ih h).imp fun _ hm => hm.imp_left (List.mem_cons_of_mem _)
    next => exact (ih h).imp fun _ hm => hm.imp_left (List.mem_cons_of_mem _)

/-- Under the comparer of its type a scalar equals itself, NaN included. -/
theorem scalar_self {s : ScalarType} (hv : v.scalarType? = some s) (hnumeric : v.NumericDocuments) :
    (forType (.scalar s)).equals v v = true := by
  rw [equals_iff]
  cases v with
  | f32 | f64 =>
    obtain rfl := Option.some.inj hv
    exact .floats rfl rfl
  | json j =>
    obtain rfl := Option.some.inj hv
    obtain ⟨hjson, -⟩ := hnumeric
    exact .plain rfl (Json.same_self (hjson j rfl))
  | decimal | bigDecimal | zoned =>
    obtain rfl := Option.some.inj hv
    exact .plain rfl (beq_self_eq_true _)
  | null | enum | list | multi | record => cases hv
  | _ =>
    obtain rfl := Option.some.inj hv
    exact .plain rfl (Value.same_iff.mpr (.atom rfl))

/-- Under the comparer of its type a value equals itself. -/
theorem forType_self {t : HostType} (hv : t.Conforms v) (hnumeric : v.NumericDocuments) :
    (forType t).equals v v = true := by
  induction hv with
  | null => exact null_self
  | scalar h => exact scalar_self h hnumeric
  | option _ ih =>
    rw [forType]
    exact ih hnumeric
  | enum => exact equals_iff.mpr (.plain rfl (Value.same_iff.mpr (.atom rfl)))
  | @bytes items h =>
    refine equals_iff.mpr (.items (forall₂_self fun item hitem => ?_))
    obtain ⟨b, rfl⟩ := h item hitem
    exact scalar_self rfl (hnumeric.of_mem hitem)
  | @list l items _ _ ih =>
    obtain ⟨element, shape⟩ := l
    exact equals_iff.mpr (.items (forall₂_self fun item hitem =>
      ih item hitem (hnumeric.of_mem hitem)))
  | @record r entries _ hmembers _ _ ih =>
    obtain ⟨name, composite, members⟩ := r
    refine equals_iff.mpr (.members fun member hmember => rel_self fun w hw => ?_)
    obtain ⟨m, hm, rfl⟩ := exists_mem_of_forMembers hmember
    obtain ⟨w', hget⟩ := Option.isSome_iff_exists.mp (hmembers m hm)
    obtain rfl := Option.some.inj ((Entries.getIgnoringCase?_of_get? hget).symm.trans hw)
    exact ih m hm w' hget (hnumeric.of_mem (Value.mem_parts_of_getIgnoringCase? hw))

end Comparer

namespace Catalog

variable {c : Catalog} {k : Key} {m : Mapping} {v : Value}

/-! ## Comparers of mappings -/

/-- The facets of a store type change no comparer. -/
theorem comparer_withStoreFacets (m : Mapping) (store : List Char) :
    (m.withStoreFacets store).comparer = m.comparer := by
  unfold Mapping.withStoreFacets
  split
  next => split <;> rfl
  next => rfl

/-- The default mapping of a host type has the comparer of its type. -/
theorem comparer_of_ofHostType? {type : HostType} (h : Builtin.ofHostType? type = some m) :
    m.comparer = .forType m.type := by
  unfold Builtin.ofHostType? at h
  split at h
  next s =>
    obtain rfl := Option.some.inj h
    cases s <;> rfl
  next =>
    obtain rfl := Option.some.inj h
    rfl
  next => cases h

/-- So has that mapping under a store type with facets. -/
theorem comparer_of_facets {type : HostType} (h : Builtin.ofHostType? type = some m)
    (store : List Char) :
    (m.withStoreFacets store).comparer = .forType (m.withStoreFacets store).type := by
  rw [comparer_withStoreFacets, (Mapping.withStoreFacets_alike m store).1,
    comparer_of_ofHostType? h]

/-- The mapping of a scalar store type has the comparer of its type. -/
theorem comparer_of_scalarNamed? {store : List Char} (h : scalarNamed? store = some m) :
    m.comparer = .forType m.type := by
  obtain ⟨b, rfl⟩ := exists_of_scalarNamed? h
  exact comparer_of_facets b.ofHostType?_type store

/-- The mapping of a host type under a scalar store type has the comparer of its type. -/
theorem comparer_of_scalarPair? {type : HostType} {store : List Char} {byStore : Mapping}
    (hstore : scalarNamed? store = some byStore) (h : scalarPair? type store byStore = some m) :
    m.comparer = .forType m.type := by
  rcases scalarPair?_cases h with ⟨-, rfl⟩ | ⟨-, -, rfl⟩ | ⟨byType, hbyType, rfl⟩
  · exact comparer_of_scalarNamed? hstore
  · rfl
  · exact comparer_of_facets hbyType store

/-- A list equals itself if its elements do. -/
theorem array_self {element : Mapping} {l : ListType} {convention : Shape}
    (hv : HostType.Conforms (.list l) v) (hnumeric : v.NumericDocuments)
    (h : ∀ item, l.element.Conforms item → item.NumericDocuments →
      element.comparer.equals item item = true) :
    (Mapping.array element l convention).comparer.equals v v = true := by
  rcases hv.list_cases with rfl | ⟨items, rfl⟩
  · exact Comparer.null_self
  · refine Comparer.equals_list.mpr ⟨items, rfl, forall₂_self fun item hitem => ?_⟩
    exact h item (hv.items item hitem) (hnumeric.of_mem hitem)

/-- A record equals itself if what its fields take does. -/
theorem struct_self {fields : List Field} {store : Option String} {type : HostType}
    {r : RecordType} (hv : HostType.Conforms (.record r) v) (hnumeric : v.NumericDocuments)
    (h : ∀ entries, v = .record entries → ∀ f ∈ fields, ∀ w, f.extract entries = some w →
      w.NumericDocuments → f.mapping.comparer.equals w w = true) :
    (Mapping.struct fields store type).comparer.equals v v = true := by
  rcases hv.record_cases with rfl | ⟨entries, rfl⟩
  · exact Comparer.null_self
  · refine Comparer.equals_record.mpr ⟨entries, rfl, fun member hmember => ?_⟩
    obtain ⟨f, hf, rfl⟩ := List.mem_map.mp hmember
    refine rel_self fun w hw => h entries rfl f hf w hw ?_
    exact hnumeric.of_mem (Value.mem_parts_of_getIgnoringCase? hw)

/-- A field of a struct store type takes values of the type that its mapping is for. -/
theorem conforms_tokenField {record : Option RecordType} {tokens : List StoreType.FieldToken}
    {mapping : StoreType.FieldToken → Mapping} {token : StoreType.FieldToken} {entries : Record}
    {w : Value} (h : Resolves c (Key.ofField record token) (mapping token))
    (htoken : token ∈ tokens)
    (hv : (structType record (tokenFields record mapping tokens)).Conforms (.record entries))
    (hw : (structField record token (mapping token)).extract entries = some w) :
    (mapping token).type.Conforms w := by
  cases record with
  | some r =>
    obtain ⟨t, ht, hconforms⟩ := extract_structField hv hw
    rw [type_of_resolves h ht]
    exact hconforms.unwrapOption
  | none =>
    have hmember := List.mem_map_of_mem
      (f := fun f : Field => (⟨f.name, f.type, true, true⟩ : Member))
      (List.mem_map_of_mem (f := fun token => structField none token (mapping token)) htoken)
    exact conforms_of_getIgnoringCase? hv hmember hw

/-- Under the comparer of a mapping that is found a value of its type equals itself. -/
theorem equals_self_of_resolves (h : Resolves c k m) (hv : m.type.Conforms v)
    (hnumeric : v.NumericDocuments) : m.comparer.equals v v = true := by
  have hscalar {m : Mapping} {v : Value} (hcomparer : m.comparer = .forType m.type)
      (hv : m.type.Conforms v) (hnumeric : v.NumericDocuments) :
      m.comparer.equals v v = true := by
    rw [hcomparer]
    exact Comparer.forType_self hv hnumeric
  induction h generalizing v with
  | option _ ih => exact ih hv hnumeric
  | enum _ hm =>
    obtain ⟨-, rfl⟩ := enumMapping?_some hm
    exact Comparer.forType_self hv hnumeric
  | @struct record _ tokens mapping _ h ih =>
    obtain ⟨r, hr⟩ : ∃ r, structType record (tokenFields record mapping tokens) = .record r := by
      cases record <;> exact ⟨_, rfl⟩
    refine struct_self (hr ▸ hv) hnumeric fun entries hentries f hf w hw hw' => ?_
    subst hentries
    obtain ⟨token, htoken, rfl⟩ := List.mem_map.mp hf
    rw [structField_mapping]
    exact ih token htoken (conforms_tokenField (h token htoken) htoken hv hw) hw'
  | record _ _ h ih =>
    refine struct_self hv hnumeric fun entries hentries f hf w hw hw' => ?_
    subst hentries
    obtain ⟨member, hmember, hfound⟩ := List.mem_filterMap.mp hf
    obtain ⟨mapping, hmapping, rfl⟩ := Option.map_eq_some_iff.mp hfound
    have hconforms := conforms_of_getIgnoringCase? hv (List.mem_filter.mp hmember).1 hw
    refine ih member hmember mapping hmapping ?_ hw'
    rw [type_of_resolves (h member hmember mapping hmapping) rfl]
    exact hconforms.unwrapOption
  | @array list _ _ em _ _ h hm ih =>
    obtain rfl := arrayMapping?_some hm
    refine array_self hv hnumeric fun item hitem => ih ?_
    cases list with
    | some l =>
      rw [type_of_resolves h (type_keyOf ..)]
      exact hitem.unwrapOption
    | none => exact hitem
  | list _ h hm ih =>
    obtain rfl := arrayMapping?_some hm
    refine array_self hv hnumeric fun item hitem => ih ?_
    rw [type_of_resolves h rfl]
    exact hitem.unwrapOption
  | named hm => exact hscalar (comparer_of_scalarNamed? hm) hv hnumeric
  | pair hstore hm => exact hscalar (comparer_of_scalarPair? hstore hm) hv hnumeric
  | builtin hm => exact hscalar (comparer_of_ofHostType? hm) hv hnumeric

/-- Every comparer is symmetric and transitive, and under the comparer of a mapping that a catalog
finds each value of the type that the mapping is for equals its snapshot. The names of a record are
taken to be distinct and the numbers of a document not to be NaN, which no text denotes. -/
theorem comparers_lawful :
    (∀ (c : Comparer) (a b : Value), a.WellFormed → b.WellFormed → c.equals a b = c.equals b a) ∧
      (∀ (c : Comparer) (a b d : Value), c.equals a b = true → c.equals b d = true →
        c.equals a d = true) ∧
      ∀ (c : Catalog) (type : Option HostType) (store : Option String) (m : Mapping) (v : Value),
        c.resolve type store = some m → m.type.Conforms v → v.NumericDocuments →
          m.comparer.equals v (m.comparer.snapshot v) = true := by
  refine ⟨fun c a b ha hb => ?_, fun c a b d => Comparer.equals_trans, ?_⟩
  · exact Bool.eq_iff_iff.mpr ⟨Comparer.equals_symm ha hb, Comparer.equals_symm hb ha⟩
  · intro c type store m v hm hv hnumeric
    rw [Comparer.snapshot_eq]
    exact equals_self_of_resolves (resolves_of_resolveKey hm) hv hnumeric

section Examples

/-- Levels of narrow floats. -/
def levels : RecordType :=
  ⟨"Levels", false, [⟨"level", .listOf (.scalar .f32), true, true⟩]⟩

/-- The mapping of the levels. -/
def levelsMapping : Mapping :=
  .struct [⟨"Level", .array (Builtin.ofScalar .f32) ⟨.scalar .f32, .list⟩ .list,
    .listOf (.scalar .f32), some "level"⟩] (some "STRUCT<Level ARRAY<FLOAT64>>") (.record levels)

/-- The mapping is found. -/
theorem resolve_levels : (default : Catalog).resolve (some (.record levels))
    (some "STRUCT<Level ARRAY<FLOAT64>>") = some levelsMapping := by
  have hparse : StoreType.parse? "STRUCT<Level ARRAY<FLOAT64>>".toList =
      some (.struct [⟨"Level".toList, "ARRAY<FLOAT64>".toList⟩]) := by decide
  have hinner : StoreType.parse? "ARRAY<FLOAT64>".toList =
      some (.array "FLOAT64".toList) := by decide
  have hscalar : StoreType.parse? "FLOAT64".toList = none := by decide
  have hfield : (default : Catalog).resolveKey
      (Key.ofField (some levels) ⟨"Level".toList, "ARRAY<FLOAT64>".toList⟩) = some
        (.array (Builtin.ofScalar .f32) ⟨.scalar .f32, .list⟩ .list) :=
    resolveKey_array (some ⟨.scalar .f32, .list⟩) hinner
      ((resolveKey_pair hscalar (by simp) (by simp)).trans rfl) rfl
  refine (resolveKey_struct (some levels) hparse ?_).trans ?_
  · simp only [List.forall_mem_singleton, hfield, fieldMapping_eq hfield]
  · rw [tokenFields, List.map_singleton, fieldMapping_eq hfield]
    rfl

/-- A record with NaN among the levels. -/
def levelsValue : Value := .record ⟨[("level", .list [.f32 ⟨0x7fc00000⟩, .null])]⟩

/-- The record is of the type that the mapping is for. -/
theorem conforms_levels : levelsMapping.type.Conforms levelsValue := by
  have hlist : (HostType.listOf (.scalar .f32)).Conforms (.list [.f32 ⟨0x7fc00000⟩, .null]) :=
    .list (by simp) (List.forall_mem_cons.mpr
      ⟨.scalar rfl, List.forall_mem_singleton.mpr .null⟩)
  refine .record (List.pairwise_singleton ..) (List.forall_mem_singleton.mpr rfl)
    (List.forall_mem_singleton.mpr ⟨_, List.mem_singleton_self _, rfl⟩)
    (List.forall_mem_singleton.mpr fun w hw => ?_)
  cases hw
  exact hlist

/-- There are no documents in the record. -/
theorem numericDocuments_levels : levelsValue.NumericDocuments := by
  have hitem {v : Value} (hv : v ∈ [Value.f32 ⟨0x7fc00000⟩, .null]) : v.NumericDocuments := by
    rcases List.mem_cons.mp hv with rfl | hv
    · exact Value.numericDocuments_scalar (by simp) rfl
    · obtain rfl := List.mem_singleton.mp hv
      exact Value.numericDocuments_scalar (by simp) rfl
  refine .intro (by simp [levelsValue]) (List.forall_mem_singleton.mpr ?_)
  exact .intro (by simp) fun _ => hitem

/-- NaN in a list in a record equals its snapshot, and NaN of one width that of the other. -/
theorem comparers_lawful_nan :
    levelsMapping.comparer.equals levelsValue (levelsMapping.comparer.snapshot levelsValue) = true ∧
      levelsValue.same levelsValue = false ∧
      Comparer.float.equals (.f32 ⟨0x7fc00000⟩) (.f64 .nan) =
        Comparer.float.equals (.f64 .nan) (.f32 ⟨0x7fc00000⟩) ∧
      Comparer.float.equals (.f32 ⟨0x7fc00000⟩) (.f32 ⟨0x7fc00000⟩) = true := by
  obtain ⟨hsymm, htrans, hsnapshot⟩ := comparers_lawful
  have hnarrow : (Value.f32 ⟨0x7fc00000⟩).WellFormed := Value.wellFormed_scalar rfl rfl
  have hwide : (Value.f64 .nan).WellFormed := Value.wellFormed_scalar rfl rfl
  have hequals : Comparer.float.equals (.f32 ⟨0x7fc00000⟩) (.f64 .nan) = true := by decide
  have hback : Comparer.float.equals (.f64 .nan) (.f32 ⟨0x7fc00000⟩) = true := by decide
  exact ⟨hsnapshot default _ _ levelsMapping levelsValue resolve_levels conforms_levels
    numericDocuments_levels, by decide, hsymm .float _ _ hnarrow hwide,
    htrans .float _ _ _ hequals hback⟩

end Examples

end Catalog

end TypedSql
