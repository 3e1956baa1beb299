import TypedSql.Proofs.Catalog.Resolution
import TypedSql.Proofs.Mapping.Members
import TypedSql.Proofs.Wire.Agreement

/-!
# Values covered by their mapping

Every value of a host type can be written and sent by every mapping that a catalog finds for the
type, under any store type. The scalar tables pair each host type with a kind and a converter that
cover its values; structs, arrays, options, enumerations and documents follow by induction over the
way in which the mapping was found.
-/

namespace TypedSql

open Result Mapping

/-- A mapping covers a value whose scalars are of the kinds that they are stored as. -/
abbrev Mapping.Covers : Mapping → Value → Prop := Accepts fun _ kind w => kind.Takes w

/-- A mapping has the kind that it is found to have. -/
theorem Mapping.kind_of_hasKind {m : Mapping} {kind : ScalarKind} (h : m.hasKind kind = true) :
    m.kind = .scalar kind := by
  unfold hasKind at h
  split at h
  next k hk => rw [hk, eq_of_beq h]
  next => simp at h

/-! ## Scalar tables -/

namespace Builtin

/-- The mapping of a scalar host type covers its values. -/
theorem covers_ofScalar {s : ScalarType} {v : Value} (h : v.scalarType? = some s) :
    (ofScalar s).Covers v := by
  cases v <;> simp only [Value.scalarType?, Option.some.injEq, reduceCtorEq] at h <;> subst h <;>
    exact (accepts_scalar rfl).mpr
      (.inr ⟨_, rfl, by simp [ScalarKind.Takes, Value.scalarType?, Value.toInt64?]⟩)

/-- The mapping of a store type is the default of the host type it is made for. -/
theorem ofHostType?_type (b : Builtin) : ofHostType? b.mapping.type = some b.mapping := by
  cases b <;> rfl

/-- The default mapping of a host type covers its values. -/
theorem covers_ofHostType {t : HostType} {m : Mapping} {v : Value} (h : ofHostType? t = some m)
    (hv : t.Conforms v) : m.Covers v := by
  unfold ofHostType? at h
  split at h
  next s =>
    obtain rfl := Option.some.inj h
    cases hv with
    | null => exact .null rfl
    | scalar hs => exact covers_ofScalar hs
  next =>
    obtain rfl := Option.some.inj h
    cases hv with
    | null => exact .null rfl
    | bytes hitems =>
      have htakes : ScalarKind.bytes.Takes (.list _) := hitems
      exact (accepts_scalar rfl).mpr (.inr ⟨_, rfl, htakes⟩)
    | list hbytes => exact absurd rfl hbytes
  next => simp at h

end Builtin

namespace Catalog

/-- A store type by its name is that of a scalar up to its facets. -/
theorem scalarNamed?_alike {store : List Char} {m : Mapping} (h : scalarNamed? store = some m) :
    ∃ b : Builtin, m.type = b.mapping.type ∧ m.kind = b.mapping.kind ∧
      m.converter = b.mapping.converter := by
  unfold scalarNamed? at h
  split at h
  next b _ =>
    obtain rfl := Option.some.inj h
    exact ⟨b, rfl, rfl, rfl⟩
  next =>
    extract_lets base at h
    split at h
    · simp at h
    · obtain ⟨b, -, rfl⟩ := Option.map_eq_some_iff.mp h
      exact ⟨b, withStoreFacets_alike _ _⟩

/-- The ways in which a host type and a scalar store type go together. -/
theorem scalarPair?_cases {type : HostType} {store : List Char} {byStore m : Mapping}
    (h : scalarPair? type store byStore = some m) :
    byStore.type = type ∧ m = byStore ∨
      byStore.kind = .scalar .json ∧ (type.isRecord = true ∨ type.isList = true) ∧
        m = (byStore.withType type).withConverter .toJson ∨
      ∃ byType, Builtin.ofHostType? type = some byType ∧ m = byType.withStoreFacets store := by
  unfold scalarPair? at h
  split at h
  next htype => exact Or.inl ⟨htype, (Option.some.inj h).symm⟩
  next =>
    split at h
    next hjson =>
      exact Or.inr (Or.inl ⟨kind_of_hasKind hjson.1, hjson.2, (Option.some.inj h).symm⟩)
    next =>
      obtain ⟨byType, hbyType, hm⟩ := Option.bind_eq_some_iff.mp h
      split at hm
      · exact Or.inr (Or.inr ⟨byType, hbyType, (Option.some.inj hm).symm⟩)
      · simp at hm

/-- An enumeration is stored as its underlying integers. -/
theorem enumMapping?_some {type : HostType} {u m : Mapping}
    (h : enumMapping? type (some u) = some m) :
    u.type.isInteger = true ∧ m = (u.withType type).withConverter .enumToNumber := by
  rw [enumMapping?, Option.bind_some] at h
  split at h
  next hinteger => exact ⟨hinteger, (Option.some.inj h).symm⟩
  next => simp at h

/-- An array has the mapping that its elements and its shape make. -/
theorem arrayMapping?_some {settings : Settings} {element m : Mapping} {list : ListType}
    (h : arrayMapping? settings element list = some m) :
    m = .array element list settings.materialization := by
  unfold arrayMapping? at h
  split at h
  · simp at h
  · split at h
    · simp at h
    · exact (Option.some.inj h).symm

/-! ## Enumerations -/

/-- Mappings of integers store integers. -/
def StoresIntegers (m : Mapping) : Prop :=
  m.type.isInteger = true → m.kind = .scalar .int64 ∨ m.kind = .scalar .decimal

/-- Records and sequences are no integers. -/
theorem not_isInteger_of_composite {t : HostType} (h : t.isRecord = true ∨ t.isList = true) :
    ¬t.isInteger = true := by
  cases t with
  | record r => exact fun h => nomatch h
  | list l => exact fun h => nomatch h
  | _ => simp [HostType.isRecord, HostType.isList] at h

/-- Mappings of unsigned integers of 64 bits store decimals, those of other integers integers. -/
def StoredInKind (m : Mapping) : Prop :=
  m.type.isInteger = true → m.kind = .scalar (if m.type = .scalar .u64 then .decimal else .int64)

/-- The default mappings store integers so. -/
theorem storedInKind_of_ofHostType? {t : HostType} {m : Mapping}
    (h : Builtin.ofHostType? t = some m) : StoredInKind m := by
  unfold Builtin.ofHostType? at h
  split at h
  next s =>
    obtain rfl := Option.some.inj h
    intro hinteger
    cases s <;> first | rfl | cases hinteger
  next =>
    obtain rfl := Option.some.inj h
    intro hinteger
    cases hinteger
  next => cases h

/-- Scalar store types by their names are for signed integers of 64 bits, if for any. -/
theorem storedInKind_of_scalarNamed? {store : List Char} {m : Mapping}
    (h : scalarNamed? store = some m) : StoredInKind m := by
  obtain ⟨b, htype, hkind, -⟩ := scalarNamed?_alike h
  rw [StoredInKind, htype, hkind]
  exact storedInKind_of_ofHostType? (Builtin.ofHostType?_type b)

/-- Every mapping that a catalog finds stores integers so, whatever the store type is. -/
theorem storedInKind_of_resolves {c : Catalog} {k : Key} {m : Mapping} (h : c.Resolves k m) :
    StoredInKind m := by
  induction h with
  | option _ ih => exact ih
  | enum _ hm =>
    obtain ⟨-, rfl⟩ := enumMapping?_some hm
    intro hinteger
    cases hinteger
  | @struct record =>
    intro hinteger
    cases record <;> cases hinteger
  | record =>
    intro hinteger
    cases hinteger
  | array _ _ hm | list _ _ hm =>
    rw [arrayMapping?_some hm]
    intro hinteger
    cases hinteger
  | named hm => exact storedInKind_of_scalarNamed? hm
  | pair hstore hm =>
    rcases scalarPair?_cases hm with ⟨-, rfl⟩ | ⟨-, htype, rfl⟩ | ⟨byType, hbyType, rfl⟩
    · exact storedInKind_of_scalarNamed? hstore
    · exact fun h => absurd h (not_isInteger_of_composite htype)
    · obtain ⟨htype, hkind, -⟩ := withStoreFacets_alike byType _
      rw [StoredInKind, htype, hkind]
      exact storedInKind_of_ofHostType? hbyType
  | builtin hm => exact storedInKind_of_ofHostType? hm

/-- Mappings that a catalog finds for integers store integers. -/
theorem storesIntegers_of_resolves {c : Catalog} {k : Key} {m : Mapping} (h : c.Resolves k m) :
    StoresIntegers m := by
  intro hinteger
  have hkind := storedInKind_of_resolves h hinteger
  split at hkind
  · exact .inr hkind
  · exact .inl hkind

/-! ## Converted kinds -/

/-- The kinds under which a catalog stores converted values. -/
def holdsConverted : ScalarKind → Bool
  | .int64 | .decimal | .string | .json => true
  | _ => false

/-- The default mapping of a host type converts values of those kinds only. -/
theorem unconverted_ofHostType {t : HostType} {m : Mapping} (h : Builtin.ofHostType? t = some m)
    {kind : ScalarKind} (hkind : m.kind = .scalar kind) (hholds : holdsConverted kind = false) :
    m.converter = none := by
  unfold Builtin.ofHostType? at h
  split at h
  next s =>
    obtain rfl := Option.some.inj h
    cases s with
    | u64 | char | uuid =>
      cases hkind
      cases hholds
    | _ => rfl
  next =>
    obtain rfl := Option.some.inj h
    rfl
  next => cases h

/-- The mappings that a catalog finds convert values of those kinds only. -/
theorem unconverted_of_resolves {c : Catalog} {k : Key} {m : Mapping} (h : c.Resolves k m)
    {kind : ScalarKind} (hkind : m.kind = .scalar kind) (hholds : holdsConverted kind = false) :
    m.converter = none := by
  have hbuiltin (b : Builtin) : b.mapping.converter = none := by cases b <;> rfl
  induction h with
  | option _ ih => exact ih hkind
  | enum hu hm =>
    obtain ⟨hinteger, rfl⟩ := enumMapping?_some hm
    rcases storesIntegers_of_resolves hu hinteger with hu | hu
    all_goals
      obtain rfl := KindOf.scalar.inj (hu.symm.trans hkind)
      cases hholds
  | struct => cases hkind
  | record => cases hkind
  | array _ _ hm | list _ _ hm =>
    rw [arrayMapping?_some hm] at hkind
    cases hkind
  | named hm =>
    obtain ⟨b, -, -, hconverter⟩ := scalarNamed?_alike hm
    exact hconverter.trans (hbuiltin b)
  | pair hstore hm =>
    rcases scalarPair?_cases hm with ⟨-, rfl⟩ | ⟨hjson, -, rfl⟩ | ⟨byType, hbyType, rfl⟩
    · obtain ⟨b, -, -, hconverter⟩ := scalarNamed?_alike hstore
      exact hconverter.trans (hbuiltin b)
    · obtain rfl := KindOf.scalar.inj (hjson.symm.trans hkind)
      cases hholds
    · obtain ⟨-, hkind', hconverter⟩ := withStoreFacets_alike byType _
      exact hconverter.trans (unconverted_ofHostType hbyType (hkind'.symm.trans hkind) hholds)
  | builtin hm => exact unconverted_ofHostType hm hkind hholds

/-! ## Fields and members -/

/-- Trimming a store type keeps the host type of a key. -/
@[simp]
theorem type_keyOf (type : Option HostType) (store : Option (List Char)) :
    (Key.of type store).type = type := by
  cases store <;> rfl

/-- A member of a conforming record has a conforming entry, which is found in any case. -/
theorem conforms_of_getIgnoringCase? {r : RecordType} {entries : Record} {member : Member}
    {w : Value} (hv : HostType.Conforms (.record r) (.record entries))
    (hmember : member ∈ r.members) (hw : entries.getIgnoringCase? member.name = some w) :
    member.type.Conforms w := by
  cases hv with
  | record _ hmembers _ h =>
    obtain ⟨w', hget⟩ := Option.isSome_iff_exists.mp (hmembers member hmember)
    rw [Entries.getIgnoringCase?_of_get? hget] at hw
    obtain rfl := Option.some.inj hw
    exact h member hmember _ hget

/-- A field of a struct store type has the mapping found for it. -/
theorem structField_mapping (record : Option RecordType) (token : StoreType.FieldToken)
    (mapping : Mapping) : (structField record token mapping).mapping = mapping := by
  unfold structField
  extract_lets name
  split <;> rfl

/-- A field has the name of its token, whatever member is behind it. -/
theorem structField_name (record : Option RecordType) (token : StoreType.FieldToken)
    (mapping : Mapping) : (structField record token mapping).name = String.ofList token.name := by
  unfold structField
  extract_lets name
  split <;> rfl

/-- A field of a struct store type looks up the member that its name means. -/
theorem looksUp_structField {r : RecordType} (token : StoreType.FieldToken) (mapping : Mapping) :
    (structField (some r) token mapping).LooksUp r := by
  rw [Field.LooksUp, structField_name]
  unfold structField
  extract_lets name
  rw [Option.bind_some]
  cases r.member? name with
  | none => rfl
  | some member =>
    simp only [FieldOf.memberName, Option.map_some, Option.getD_some]
    split
    next hname => exact hname.symm
    next => rfl

/-- A field of a struct store type takes the entry of the member that its name means. -/
theorem extract_structField {r : RecordType} {token : StoreType.FieldToken} {mapping : Mapping}
    {entries : Record} {w : Value} (hv : HostType.Conforms (.record r) (.record entries))
    (hw : (structField (some r) token mapping).extract entries = some w) :
    ∃ t, (Key.ofField (some r) token).type = some t ∧ t.Conforms w := by
  have hlooks := looksUp_structField (r := r) token mapping
  by_cases hbacked : ∃ member, r.Backs (structField (some r) token mapping).name member
  · obtain ⟨member, hmember⟩ := hbacked
    obtain ⟨w', hget, hextract⟩ :=
      Field.extract_backed (fun _ => hv.mem_names_iff) hlooks hmember
    obtain rfl := Option.some.inj (hw.symm.trans hextract)
    rw [structField_name] at hmember
    refine ⟨member.type, ?_, conforms_of_getIgnoringCase? hv hmember.mem
      (Entries.getIgnoringCase?_of_get? hget)⟩
    rw [Key.ofField, type_keyOf, Option.bind_some, RecordOf.member?_eq_some_iff.mpr hmember]
    rfl
  · have hnone := not_exists.mp hbacked
    rw [Field.extract_unbacked (fun _ => hv.mem_names_iff) hlooks hnone] at hw
    cases hw

/-! ## One step -/

variable {v : Value}

/-- An array mapping covers lists of what its element mapping covers. -/
theorem covers_array {element : Mapping} {l : ListType} {convention : Shape}
    (hv : HostType.Conforms (.list l) v)
    (hfinite : (Mapping.array element l convention).FiniteDocuments v)
    (h : ∀ item, l.element.Conforms item → element.FiniteDocuments item → element.Covers item) :
    (Mapping.array element l convention).Covers v := by
  rcases hv.list_cases with rfl | ⟨items, rfl⟩
  · exact .null rfl
  · have hprepare : (Mapping.array element l convention).prepare (.list items) =
        .ok (some (.list items)) := by
      simp only [prepare, toStored, Mapping.array]
      cases l.shape.isConcrete <;> rfl
    exact .array rfl hprepare fun item hitem =>
      h item (hv.items item hitem) (hfinite.item rfl hprepare hitem)

/-- A struct mapping covers records with entries that its fields cover. -/
theorem covers_struct {fields : List Field} {store : Option String} {type : HostType}
    {r : RecordType} (hv : HostType.Conforms (.record r) v)
    (hfinite : (Mapping.struct fields store type).FiniteDocuments v)
    (h : ∀ entries, v = .record entries → ∀ f ∈ fields, ∀ w, f.extract entries = some w →
      f.mapping.FiniteDocuments w → f.mapping.Covers w) :
    (Mapping.struct fields store type).Covers v := by
  rcases hv.record_cases with rfl | ⟨entries, rfl⟩
  · exact .null rfl
  · exact .struct rfl rfl fun f hf w hw => h entries rfl f hf w hw (hfinite.field rfl rfl hf hw)

/-- An enumeration of integers is covered by the mapping of its integers. -/
theorem covers_enum {e : EnumType} {u m : Mapping} (hu : StoresIntegers u)
    (hm : enumMapping? (.enum e) (some u) = some m) (hv : HostType.Conforms (.enum e) v) :
    m.Covers v := by
  obtain ⟨hinteger, rfl⟩ := enumMapping?_some hm
  rcases hv.enum_cases with rfl | ⟨discriminant, rfl⟩
  · exact .null rfl
  · rcases hu hinteger with hkind | hkind
    · exact .scalar hkind rfl (by simp [ScalarKind.Takes, Value.toInt64?])
    · exact .scalar hkind rfl (by simp [ScalarKind.Takes, Value.toInt64?])

/-- A document mapping covers the records and lists that have a document. -/
theorem covers_document {t : HostType} {m : Mapping} (hkind : m.kind = .scalar .json)
    (hconverter : m.converter = some .toJson) (ht : t.isRecord = true ∨ t.isList = true)
    (hv : t.Conforms v) (hfinite : m.FiniteDocuments v) : m.Covers v := by
  obtain ⟨json, hjson⟩ := Value.succeeds_toDocument hv (hfinite m v .whole hconverter)
  have hprepare : v = .null ∨ m.prepare v = .ok (some (.json json)) := by
    rcases hv.composite_cases ht with rfl | ⟨entries, rfl⟩ | ⟨items, rfl⟩
    · exact Or.inl rfl
    · simp [prepare, toStored, hconverter, Value.isNull, Converter.toStored, hjson, Except.map]
    · simp [prepare, toStored, hconverter, Value.isNull, Converter.toStored, hjson, Except.map]
  rcases hprepare with rfl | hprepare
  · exact .null rfl
  · exact .scalar hkind hprepare rfl

/-- A host type under a scalar store type is covered by the tables or by documents. -/
theorem covers_pair {t : HostType} {store : List Char} {byStore m : Mapping}
    (hstore : scalarNamed? store = some byStore) (hm : scalarPair? t store byStore = some m)
    (hv : t.Conforms v) (hfinite : m.FiniteDocuments v) : m.Covers v := by
  rcases scalarPair?_cases hm with ⟨htype, rfl⟩ | ⟨hkind, htype, rfl⟩ | ⟨byType, hbyType, rfl⟩
  · obtain ⟨b, hb, hkind, hconverter⟩ := scalarNamed?_alike hstore
    have hcovers := Builtin.covers_ofHostType b.ofHostType?_type (hb ▸ htype ▸ hv)
    exact hcovers.of_alike hkind.symm hconverter.symm
  · exact covers_document hkind rfl htype hv hfinite
  · obtain ⟨-, hkind, hconverter⟩ := withStoreFacets_alike byType store
    exact (Builtin.covers_ofHostType hbyType hv).of_alike hkind.symm hconverter.symm

/-! ## All resolved mappings -/

/-- The mapping that a catalog finds for a host type covers the values of the type, as long as the
floats in its documents are finite. -/
theorem covers_of_resolves {c : Catalog} {k : Key} {m : Mapping} (h : c.Resolves k m)
    {t : HostType} (ht : k.type = some t) (hv : t.Conforms v)
    (hfinite : m.FiniteDocuments v) : m.Covers v := by
  induction h generalizing t v with
  | @option inner store m _ ih =>
    obtain rfl := Option.some.inj ht
    have hkind : (nullable m).kind = m.kind := rfl
    have hconverter : (nullable m).converter = m.converter := rfl
    exact (ih rfl hv.of_option (hfinite.of_alike hkind hconverter)).of_alike hkind.symm
      hconverter.symm
  | enum h hm _ =>
    obtain rfl := Option.some.inj ht
    exact covers_enum (storesIntegers_of_resolves h) hm hv
  | struct _ _ ih =>
    obtain ⟨r, rfl, rfl⟩ := Option.map_eq_some_iff.mp ht
    refine covers_struct hv hfinite fun entries hentries f hf w hw hfw => ?_
    subst hentries
    obtain ⟨token, htoken, rfl⟩ := List.mem_map.mp hf
    obtain ⟨t, ht, hconforms⟩ := extract_structField hv hw
    rw [structField_mapping] at hfw ⊢
    exact ih token htoken ht hconforms hfw
  | record _ _ _ ih =>
    obtain rfl := Option.some.inj ht
    refine covers_struct hv hfinite fun entries hentries f hf w hw hfw => ?_
    subst hentries
    obtain ⟨member, hmember, hfound⟩ := List.mem_filterMap.mp hf
    obtain ⟨mapping, hmapping, rfl⟩ := Option.map_eq_some_iff.mp hfound
    have hw' := conforms_of_getIgnoringCase? hv (List.mem_filter.mp hmember).1 hw
    exact ih member hmember mapping hmapping rfl hw' hfw
  | array _ _ hm ih =>
    obtain ⟨l, rfl, rfl⟩ := Option.map_eq_some_iff.mp ht
    rw [arrayMapping?_some hm] at hfinite ⊢
    exact covers_array hv hfinite fun item hitem hfitem => ih (type_keyOf _ _) hitem hfitem
  | list _ _ hm ih =>
    obtain rfl := Option.some.inj ht
    rw [arrayMapping?_some hm] at hfinite ⊢
    exact covers_array hv hfinite fun item hitem hfitem => ih rfl hitem hfitem
  | named hm => cases ht
  | pair hstore hm =>
    obtain rfl := Option.some.inj ht
    exact covers_pair hstore hm hv hfinite
  | builtin hm =>
    obtain rfl := Option.some.inj ht
    exact Builtin.covers_ofHostType hm hv

/-- Every value of a host type can be written and sent by the mapping that a catalog finds for the
type, as long as the floats in its documents are finite. -/
theorem succeeds_of_conforms {c : Catalog} {t : HostType} {store : Option String} {m : Mapping}
    (hm : c.resolve (some t) store = some m) {v : Value} (hv : t.Conforms v)
    (hfinite : m.FiniteDocuments v) :
    Succeeds (Literal.render m v) ∧ Succeeds (Wire.value m v) := by
  have hcovers := covers_of_resolves (resolves_of_resolveKey hm) (type_keyOf _ _) hv hfinite
  have hvalue : Succeeds (Wire.value m v) :=
    Wire.succeeds_value.mpr ((accepts_congr fun _ _ _ => Wire.succeeds_scalarValue).mpr hcovers)
  exact ⟨succeeds_map.mpr (succeeds_literal_of_value hvalue), hvalue⟩

/-- Finite floats and nulls in a list can be written and sent as a JSON document. -/
theorem succeeds_of_conforms_floats :
    ∃ m, (default : Catalog).resolve (some (.listOf (.scalar .f64))) (some "JSON") = some m ∧
      HostType.Conforms (.listOf (.scalar .f64)) (.list [.f64 ⟨0x3ff8000000000000⟩, .null]) ∧
      m.FiniteDocuments (.list [.f64 ⟨0x3ff8000000000000⟩, .null]) ∧
      Succeeds (Literal.render m (.list [.f64 ⟨0x3ff8000000000000⟩, .null])) ∧
      Succeeds (Wire.value m (.list [.f64 ⟨0x3ff8000000000000⟩, .null])) := by
  have hm : (default : Catalog).resolve (some (.listOf (.scalar .f64))) (some "JSON") =
      some ((Builtin.json.mapping.withType (.listOf (.scalar .f64))).withConverter .toJson) := by
    rw [resolve, resolveKey]
    rfl
  have hv : HostType.Conforms (.listOf (.scalar .f64))
      (.list [.f64 ⟨0x3ff8000000000000⟩, .null]) := by
    refine .list (by simp) fun item hitem => ?_
    simp only [List.mem_cons, List.not_mem_nil, or_false] at hitem
    rcases hitem with rfl | rfl
    · exact .scalar rfl
    · exact .null
  have hfinite : ((Builtin.json.mapping.withType (.listOf (.scalar .f64))).withConverter
      .toJson).FiniteDocuments (.list [.f64 ⟨0x3ff8000000000000⟩, .null]) := by
    intro m' v' hpart _
    cases hpart with
    | whole => exact ⟨rfl, trivial, trivial⟩
    | item hkind => cases hkind
    | field hkind => cases hkind
  exact ⟨_, hm, hv, hfinite, succeeds_of_conforms hm hv hfinite⟩

end Catalog

end TypedSql
