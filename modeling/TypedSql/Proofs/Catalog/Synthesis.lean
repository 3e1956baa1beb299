import TypedSql.Proofs.Catalog.Coverage
import TypedSql.Proofs.Catalog.Lookup
import TypedSql.Proofs.StoreType.Rereading
import TypedSql.Proofs.Wire.FieldNames

/-!
# Store types of default mappings

The store type of a host type's default mapping is itself looked up again. Alone it gives the same
store type and the same wire type, up to the escapes in the names of fields. Together with the host
type it gives the default mapping itself, as long as no name of a member needs an escape and no
member hides behind another one of its name.
-/

namespace TypedSql

open Text StoreType

-- A condition on all characters of a text is decided character by character.
attribute [local instance (high)] List.decidableBAll

/-! ## Induction over host types -/

/-- Induction over host types, with the types of members as members of their list. -/
theorem HostType.induct {motive : HostType → Prop} (scalar : ∀ s, motive (.scalar s))
    (option : ∀ inner, motive inner → motive (.option inner))
    (enum : ∀ e : EnumType, motive e.underlying → motive (.enum e))
    (list : ∀ l : ListType, motive l.element → motive (.list l))
    (record : ∀ r : RecordType, (∀ m ∈ r.members, motive m.type) → motive (.record r))
    (unknown : motive .unknown) (t : HostType) : motive t := by
  refine @HostType.rec motive (fun e => motive e.underlying) (fun l => motive l.element)
    (fun r => ∀ m ∈ r.members, motive m.type) (fun ms => ∀ m ∈ ms, motive m.type)
    (fun m => motive m.type) scalar option enum list record unknown ?_ ?_ ?_ ?_ ?_ ?_ t
  · intro _ _ _ h
    exact h
  · intro _ _ h
    exact h
  · intro _ _ _ h
    exact h
  · intro _ h
    exact absurd h List.not_mem_nil
  · rintro first rest hfirst hrest m hm
    rcases List.mem_cons.mp hm with rfl | hm
    · exact hfirst
    · exact hrest m hm
  · intro _ _ _ _ h
    exact h

/-! ## Names as read -/

/-- The name that a struct type written with a name is read with. -/
def readBack (name : String) : String := String.ofList (readName name.toList)

namespace Catalog

variable {c : Catalog} {t : HostType} {m : Mapping}

/-- `Occurs c r t`: the default mapping of a host type is made from that of a record type. -/
inductive Occurs (c : Catalog) (r : RecordType) : HostType → Prop
  | whole : Occurs c r (.record r)
  | option {inner : HostType} (h : Occurs c r inner) : Occurs c r (.option inner)
  | enum {e : EnumType} (h : Occurs c r e.underlying) : Occurs c r (.enum e)
  | list {l : ListType} (h : Occurs c r l.element) : Occurs c r (.list l)
  | member {outer : RecordType} {member : Member} (hmember : member ∈ outer.mappedMembers)
      (hm : (c.resolveType member.type).isSome) (h : Occurs c r member.type) :
      Occurs c r (.record outer)

/-- The members that make up a host type's default mapping are found again under the names that
are read from its store type: no name has a character to escape, and a name means a member of the
same type. -/
def NamesReadBack (c : Catalog) (t : HostType) : Prop :=
  ∀ r, c.Occurs r t → ∀ member ∈ r.mappedMembers, (c.resolveType member.type).isSome →
    (backtick ∉ member.name.toList ∧ '\\' ∉ member.name.toList) ∧
      (r.member? member.name).map (·.type) = some member.type

/-! ## Scalar store types -/

/-- The store type of a built-in mapping is a single word. -/
theorem nameless_builtin (b : Builtin) : Nameless b.mapping.storeType.toList := by
  have htext : ScalarText b.mapping.storeType.toList := by cases b <;> decide
  exact ⟨htext.selfContained, by cases b <;> decide, Or.inr (by cases b <;> decide)⟩

/-- A scalar mapping that shows the name of a built-in store type, without facets. -/
structure Bare (m : Mapping) (b : Builtin) : Prop where
  storeType : m.storeType = b.mapping.storeType
  kind : m.kind = b.mapping.kind
  unparameterized : m.facets.precision = none ∧ m.facets.scale = none ∧ m.facets.size = none

/-- A bare mapping stays so for values that may be absent. -/
theorem Bare.nullable {b : Builtin} (h : Bare m b) : Bare (nullable m) b := by
  obtain ⟨hprecision, hscale, hsize⟩ := h.unparameterized
  refine ⟨?_, h.kind, h.unparameterized⟩
  simp only [Catalog.nullable, Mapping.withFacets, Mapping.baseStoreType, h.storeType, h.kind,
    hprecision, hscale, hsize]
  cases b <;> rfl

/-- The store type of a mapping for values that may be absent is that of the mapping. -/
theorem nullable_storeType (h : m.kind.isComposite = true ∨ ∃ b, Bare m b) :
    (nullable m).storeType = m.storeType := by
  rcases h with hcomposite | ⟨b, hb⟩
  · simp [nullable, Mapping.withFacets, hcomposite]
  · exact hb.nullable.storeType.trans hb.storeType.symm

/-! ## Reading back -/

/-- The store type of a host type's mapping is looked up again, alone and with the host type. -/
structure ReadsBack (c : Catalog) (t : HostType) (m : Mapping) : Prop where
  /-- The store type can stand in a struct without a name. -/
  nameless : Nameless m.storeType.toList
  /-- A mapping that is no array and no struct is bare. -/
  bare : m.kind.isComposite = true ∨ ∃ b, Bare m b
  /-- Alone the store type gives the same one and the wire type with the names as read. -/
  alone : ∃ m₀, c.resolveKey ⟨none, some m.storeType.toList⟩ = some m₀ ∧
    m₀.storeType = m.storeType ∧ m₀.isArray = m.isArray ∧
    WireType.ofMapping m₀ = (WireType.ofMapping m).mapNames readBack
  /-- The names in the wire type are read as they are. -/
  names : c.NamesReadBack t → (WireType.ofMapping m).mapNames readBack = WireType.ofMapping m
  /-- With the host type it gives the mapping. -/
  together : c.NamesReadBack t → c.resolveKey ⟨some t, some m.storeType.toList⟩ = some m

/-- The key of a store type that stands alone keeps it. -/
theorem keyOf_nameless (type : Option HostType) {s : List Char} (h : Nameless s) :
    Key.of type (some s) = ⟨type, some s⟩ := by
  simp [Key.of, h.trimmed, h.ne_nil]

/-- A bare store type gives the built-in mapping. -/
theorem Bare.alone {b : Builtin} (h : Bare m b) :
    ∃ m₀, c.resolveKey ⟨none, some m.storeType.toList⟩ = some m₀ ∧
      m₀.storeType = m.storeType ∧ m₀.isArray = m.isArray ∧
      WireType.ofMapping m₀ = (WireType.ofMapping m).mapNames readBack := by
  refine ⟨b.mapping, ?_, h.storeType.symm, ?_, ?_⟩
  · rw [h.storeType, resolveKey_named (parse?_builtin b), scalarNamed?_builtin]
  · simp only [Mapping.isArray, h.kind]
  · rw [WireType.ofMapping_congr h.kind h.storeType]
    cases b <;> rfl

/-- A bare mapping is read back, when its host type is found under its store type. -/
theorem ReadsBack.of_bare {b : Builtin} (h : Bare m b)
    (htogether : c.NamesReadBack t → c.resolveKey ⟨some t, some m.storeType.toList⟩ = some m) :
    ReadsBack c t m where
  nameless := by
    rw [h.storeType]
    exact nameless_builtin b
  bare := Or.inr ⟨b, h⟩
  alone := h.alone
  names _ := by
    rw [WireType.ofMapping_congr h.kind h.storeType]
    cases b <;> rfl
  together := htogether

/-- The built-in mapping whose store type a scalar host type has. -/
def builtinOf : ScalarType → Builtin
  | .bool => .bool
  | .i8 | .i16 | .i32 | .i64 | .u8 | .u16 | .u32 => .int64
  | .f32 | .f64 => .float64
  | .u64 | .decimal => .numeric
  | .bigDecimal => .bigNumeric
  | .string | .char | .uuid => .string
  | .bytes => .bytes
  | .date => .date
  | .time => .time
  | .dateTime => .dateTime
  | .timestamp | .zoned => .timestamp
  | .json => .json
  | .geography => .geography

/-- The mapping of a scalar host type is bare. -/
theorem bare_ofScalar (s : ScalarType) : Bare (Builtin.ofScalar s) (builtinOf s) := by
  cases s <;> exact ⟨rfl, rfl, rfl, rfl, rfl⟩

/-- A scalar host type has its default mapping under the store type of that mapping. -/
theorem scalarPair?_builtinOf (s : ScalarType) :
    scalarPair? (.scalar s) (builtinOf s).mapping.storeType.toList (builtinOf s).mapping =
      some (Builtin.ofScalar s) := by
  cases s <;> rfl

/-- The mapping of a scalar host type is read back. -/
theorem readsBack_scalar (s : ScalarType) : ReadsBack c (.scalar s) (Builtin.ofScalar s) := by
  refine .of_bare (bare_ofScalar s) fun _ => ?_
  rw [(bare_ofScalar s).storeType, resolveKey_pair (parse?_builtin _) (by simp) (by simp),
    scalarNamed?_builtin, Option.bind_some, scalarPair?_builtinOf]

/-- The mapping of a fixed-length array of 8-bit unsigned integers is read back. -/
theorem readsBack_byteArray : ReadsBack c (.list ⟨.scalar .u8, .array⟩)
    (Builtin.bytes.mapping.withType (.arrayOf (.scalar .u8))) := by
  have hb : Bare (Builtin.bytes.mapping.withType (.arrayOf (.scalar .u8))) .bytes :=
    ⟨rfl, rfl, rfl, rfl, rfl⟩
  refine .of_bare hb fun _ => ?_
  rw [hb.storeType, resolveKey_pair (parse?_builtin .bytes) (by simp) (by simp),
    scalarNamed?_builtin]
  rfl

/-- The mapping of an optional type is read back when that of the type is. -/
theorem ReadsBack.option {inner : HostType} (h : ReadsBack c inner m) :
    ReadsBack c (.option inner) (Catalog.nullable m) := by
  -- absent values change the facets alone, and a bare store type shows none
  have hstore := nullable_storeType h.bare
  have hwire : WireType.ofMapping (Catalog.nullable m) = WireType.ofMapping m :=
    WireType.ofMapping_congr rfl hstore
  have hinner (hnames : c.NamesReadBack (.option inner)) : c.NamesReadBack inner :=
    fun r hr => hnames r (.option hr)
  refine ⟨hstore ▸ h.nameless, h.bare.imp id fun ⟨b, hb⟩ => ⟨b, hb.nullable⟩, ?_, ?_, ?_⟩
  · rw [hstore, hwire]
    exact h.alone
  · intro hnames
    rw [hwire]
    exact h.names (hinner hnames)
  · intro hnames
    rw [hstore, resolveKey_option, h.together (hinner hnames)]
    rfl

/-- The mapping of an enumeration is read back when that of its integers is. -/
theorem ReadsBack.enum {e : EnumType} {u : Mapping}
    (hu : c.resolveKey ⟨some e.underlying, none⟩ = some u) (h : ReadsBack c e.underlying u)
    (hm : enumMapping? (.enum e) (some u) = some m) : ReadsBack c (.enum e) m := by
  obtain ⟨hinteger, rfl⟩ := enumMapping?_some hm
  have hscalar : ¬u.kind.isComposite = true := by
    rcases storesIntegers_of_resolves (resolves_of_resolveKey hu) hinteger with hk | hk <;>
      simp [hk, KindOf.isComposite]
  obtain ⟨b, hb⟩ := h.bare.resolve_left hscalar
  have hbare : Bare ((u.withType (.enum e)).withConverter .enumToNumber) b :=
    ⟨hb.storeType, hb.kind, hb.unparameterized⟩
  have hparse : parse? u.storeType.toList = none := by
    rw [hb.storeType]
    exact parse?_builtin b
  have hstore : scalarNamed? u.storeType.toList = some b.mapping := by
    rw [hb.storeType]
    exact scalarNamed?_builtin b
  refine .of_bare hbare fun hnames => ?_
  have hunderlying := h.together fun r hr => hnames r (.enum hr)
  exact (resolveKey_enum hparse hstore).trans (hunderlying ▸ hm)

/-- An array has elements that are no arrays. -/
theorem arrayMapping?_element {settings : Settings} {element : Mapping} {l : ListType}
    (hm : arrayMapping? settings element l = some m) : element.isArray = false := by
  rw [arrayMapping?] at hm
  split at hm
  · simp at hm
  · next h => simpa using h

/-- The mapping of a sequence is read back when that of its elements is. -/
theorem ReadsBack.list {l : ListType} {em : Mapping} (h : ReadsBack c l.element em)
    (hm : arrayMapping? c.settings em l = some m) : ReadsBack c (.list l) m := by
  -- arrays of arrays have no mapping, on the way back as little as before
  have helement := arrayMapping?_element hm
  have hpasses : Passes 1 em.storeType.toList := h.nameless.passes.mono (Nat.zero_le 1)
  obtain rfl := arrayMapping?_some hm
  have hstore : (Mapping.array em l c.settings.materialization).storeType.toList =
      arrayOf em.storeType.toList := String.toList_ofList
  have hparse : parse? (arrayOf em.storeType.toList) = some (.array em.storeType.toList) :=
    parse?_arrayOf h.nameless.toSelfContained
  have hinner (hnames : c.NamesReadBack (.list l)) : c.NamesReadBack l.element :=
    fun r hr => hnames r (.list hr)
  refine ⟨hstore ▸ .arrayOf hpasses, Or.inl rfl, ?_, ?_, ?_⟩
  · obtain ⟨em₀, hem₀, hstore₀, harray₀, hwire₀⟩ := h.alone
    have hm₀ : arrayMapping? c.settings em₀ ⟨em₀.type, .list⟩ =
        some (.array em₀ ⟨em₀.type, .list⟩ c.settings.materialization) := by
      simp [arrayMapping?, harray₀, helement, Shape.isMultiDimensional]
    refine ⟨.array em₀ ⟨em₀.type, .list⟩ c.settings.materialization, ?_, ?_, rfl, ?_⟩
    · rw [hstore]
      exact resolveKey_array none hparse ((keyOf_nameless none h.nameless) ▸ hem₀) hm₀
    · simp only [Mapping.array, hstore₀]
    · simp only [Mapping.array, WireType.ofMapping, WireType.mapNames, hwire₀]
  · intro hnames
    simp only [Mapping.array, WireType.ofMapping, WireType.mapNames, h.names (hinner hnames)]
  · intro hnames
    rw [hstore]
    have hem := h.together (hinner hnames)
    exact resolveKey_array (some l) hparse
      ((keyOf_nameless (some l.element) h.nameless) ▸ hem) hm

/-! ## Records -/

/-- The name and the store type with which a field is written. -/
def written (f : Field) : List Char × List Char := (f.name.toList, f.mapping.storeType.toList)

/-- A field of a record's default mapping belongs to a member with that mapping. -/
theorem exists_member_of_defaultFields {r : RecordType} {f : Field} (hf : f ∈ defaultFields c r) :
    ∃ member ∈ r.mappedMembers, c.resolveKey ⟨some member.type, none⟩ = some f.mapping ∧
      f = ⟨member.name, f.mapping, member.type, none⟩ := by
  obtain ⟨member, hmember, hfound⟩ := List.mem_filterMap.mp hf
  obtain ⟨em, hem, rfl⟩ := Option.map_eq_some_iff.mp hfound
  exact ⟨member, hmember, hem, rfl⟩

/-- A member is found by its name, when the name means a member of its type. -/
theorem exists_member?_of_map {r : RecordType} {member : Member} (hmember : member ∈ r.members)
    (h : (r.member? member.name).map (·.type) = some member.type) :
    ∃ found, r.member? member.name = some found ∧ found.name = member.name ∧
      found.type = member.type := by
  obtain ⟨found, hfound, htype⟩ := Option.map_eq_some_iff.mp h
  refine ⟨found, hfound, ?_, htype⟩
  have hexact : (r.members.find? fun m => m.name == member.name).isSome :=
    List.find?_isSome.mpr ⟨member, hmember, beq_self_eq_true _⟩
  obtain ⟨first, hfirst⟩ := Option.isSome_iff_exists.mp hexact
  rw [RecordOf.member?, findNamed, hfirst] at hfound
  obtain rfl := Option.some.inj hfound
  simpa using List.find?_some hfirst

/-- Where names read back, a field keeps its name and its type, and so do the parts of its type. -/
theorem NamesReadBack.field {r : RecordType} (hnames : c.NamesReadBack (.record r)) {f : Field}
    (hf : f ∈ defaultFields c r) : readBack f.name = f.name ∧ c.NamesReadBack f.type ∧
      structField (some r) (readField (written f)) f.mapping = f ∧
        (r.member? f.name).map (·.type) = some f.type := by
  obtain ⟨member, hmember, hem, hfe⟩ := exists_member_of_defaultFields hf
  have hsome : (c.resolveType member.type).isSome := Option.isSome_iff_exists.mpr ⟨_, hem⟩
  obtain ⟨⟨hquote, hescape⟩, htype⟩ := hnames r .whole member hmember hsome
  obtain ⟨found, hfound, hname, hfoundType⟩ :=
    exists_member?_of_map (List.mem_filter.mp hmember).1 htype
  have hread : readBack member.name = member.name := by
    rw [readBack, readName_eq_self hquote hescape, String.ofList_toList]
  rw [hfe]
  refine ⟨hread, fun r' hr' => hnames r' (.member hmember hsome hr'), ?_, htype⟩
  have hread' : String.ofList (readName member.name.toList) = member.name := hread
  simp only [structField, readField, written, hread', Option.bind_some, hfound, hname, hfoundType,
    if_pos]

section Record

variable {r : RecordType} (hfield : ∀ f ∈ defaultFields c r, ReadsBack c f.type f.mapping)

include hfield

/-- The store types of a record's fields can stand in a struct. -/
theorem passes_written : ∀ w ∈ (defaultFields c r).map written, Passes 0 w.2 := by
  intro w hw
  obtain ⟨f, hf, rfl⟩ := List.mem_map.mp hw
  exact (hfield f hf).nameless.passes

/-- The store type of a record's mapping is a struct of its fields. -/
theorem parse?_record : parse? (structOf ((defaultFields c r).map written)) =
    some (.struct ((defaultFields c r).map fun f => readField (written f))) := by
  have hread : ∀ w ∈ (defaultFields c r).map written,
      fieldToken? (fieldText w.1 w.2) = some (readField w) := by
    intro w hw
    obtain ⟨f, hf, rfl⟩ := List.mem_map.mp hw
    exact fieldToken?_fieldText _ (hfield f hf).nameless
  rw [parse?_structOf (passes_written hfield) hread, List.map_map]
  rfl

/-- The key of a field that is read back keeps its store type. -/
theorem ofField_readField {f : Field} (hf : f ∈ defaultFields c r) (record : Option RecordType) :
    Key.ofField record (readField (written f)) =
      ⟨(record.bind fun r => r.member? (readBack f.name)).map (·.type),
        some f.mapping.storeType.toList⟩ :=
  keyOf_nameless _ (hfield f hf).nameless

/-- The store type of a record's mapping gives the same struct, with the names as read. -/
theorem resolveKey_record_alone : ∃ m₀,
    c.resolveKey ⟨none, some (structOf ((defaultFields c r).map written))⟩ = some m₀ ∧
      m₀.storeType = (Mapping.struct (defaultFields c r) none (.record r)).storeType ∧
      m₀.isArray = false ∧ WireType.ofMapping m₀ =
        (WireType.ofMapping (.struct (defaultFields c r) none (.record r))).mapNames readBack := by
  have halone : ∀ f ∈ defaultFields c r,
      c.resolveKey (Key.ofField none (readField (written f))) =
        some (fieldMapping c none (readField (written f))) ∧
      WireType.ofMapping (fieldMapping c none (readField (written f))) =
        (WireType.ofMapping f.mapping).mapNames readBack := by
    intro f hf
    obtain ⟨m₀, hm₀, -, -, hwire⟩ := (hfield f hf).alone
    have hkey : c.resolveKey (Key.ofField none (readField (written f))) = some m₀ := by
      rw [ofField_readField hfield hf]
      exact hm₀
    rw [fieldMapping_eq hkey]
    exact ⟨hkey, hwire⟩
  have htokens : ∀ token ∈ (defaultFields c r).map fun f => readField (written f),
      c.resolveKey (Key.ofField none token) = some (fieldMapping c none token) := by
    intro token ht
    obtain ⟨f, hf, rfl⟩ := List.mem_map.mp ht
    exact (halone f hf).1
  refine ⟨_, resolveKey_struct none (parse?_record hfield) htokens, rfl, rfl, ?_⟩
  simp only [Mapping.struct, WireType.ofMapping, WireType.mapNames, WireType.ofFields_eq,
    WireType.mapFieldNames_eq, tokenFields, List.map_map]
  refine congrArg WireType.struct (List.map_congr_left fun f hf => ?_)
  exact congrArg (Prod.mk (readBack f.name)) (halone f hf).2

/-- Where names read back, those in the wire type of a record are read as they are. -/
theorem mapNames_record (hnames : c.NamesReadBack (.record r)) :
    (WireType.ofMapping (.struct (defaultFields c r) none (.record r))).mapNames readBack =
      WireType.ofMapping (.struct (defaultFields c r) none (.record r)) := by
  simp only [Mapping.struct, WireType.ofMapping, WireType.mapNames, WireType.ofFields_eq,
    WireType.mapFieldNames_eq, List.map_map]
  refine congrArg WireType.struct (List.map_congr_left fun f hf => ?_)
  obtain ⟨hname, htype, -, -⟩ := hnames.field hf
  exact Prod.ext hname ((hfield f hf).names htype)

/-- Where names read back, a record with the store type of its mapping has that mapping. -/
theorem resolveKey_record_together (hnames : c.NamesReadBack (.record r)) :
    c.resolveKey ⟨some (.record r), some (structOf ((defaultFields c r).map written))⟩ =
      some (.struct (defaultFields c r) none (.record r)) := by
  have hkey : ∀ f ∈ defaultFields c r,
      c.resolveKey (Key.ofField (some r) (readField (written f))) = some f.mapping := by
    intro f hf
    obtain ⟨hname, htype, -, hmember⟩ := hnames.field hf
    rw [ofField_readField hfield hf, hname, Option.bind_some, hmember]
    exact (hfield f hf).together htype
  have htokens : ∀ token ∈ (defaultFields c r).map fun f => readField (written f),
      c.resolveKey (Key.ofField (some r) token) = some (fieldMapping c (some r) token) := by
    intro token ht
    obtain ⟨f, hf, rfl⟩ := List.mem_map.mp ht
    rw [hkey f hf, fieldMapping_eq (hkey f hf)]
  have hfields : tokenFields (some r) (fieldMapping c (some r))
      ((defaultFields c r).map fun f => readField (written f)) = defaultFields c r := by
    rw [tokenFields, List.map_map]
    refine (List.map_congr_left fun f hf => ?_).trans (List.map_id _)
    obtain ⟨-, -, hsame, -⟩ := hnames.field hf
    exact (congrArg _ (fieldMapping_eq (hkey f hf))).trans hsame
  have hm := resolveKey_struct (some r) (parse?_record hfield) htokens
  rw [hfields] at hm
  exact hm

end Record

/-- The mapping of a record is read back when those of its fields are. -/
theorem ReadsBack.record {r : RecordType}
    (hfield : ∀ f ∈ defaultFields c r, ReadsBack c f.type f.mapping) :
    ReadsBack c (.record r) (.struct (defaultFields c r) none (.record r)) := by
  have hstore : (Mapping.struct (defaultFields c r) none (.record r)).storeType.toList =
      structOf ((defaultFields c r).map written) := String.toList_ofList
  exact {
    nameless := hstore ▸ .structOf (passes_written hfield)
    bare := Or.inl rfl
    alone := hstore ▸ resolveKey_record_alone hfield
    names := mapNames_record hfield
    together := fun hnames => hstore ▸ resolveKey_record_together hfield hnames }

/-- Induction over default mappings, by the way in which each is made from those of the parts of
its host type. -/
theorem resolveKey_induction {motive : HostType → Mapping → Prop}
    (scalar : ∀ s, motive (.scalar s) (Builtin.ofScalar s))
    (option : ∀ inner m, c.resolveKey ⟨some inner, none⟩ = some m → motive inner m →
      motive (.option inner) (nullable m))
    (enum : ∀ (e : EnumType) u m, c.resolveKey ⟨some e.underlying, none⟩ = some u →
      motive e.underlying u → enumMapping? (.enum e) (some u) = some m → motive (.enum e) m)
    (byteArray : motive (.list ⟨.scalar .u8, .array⟩)
      (Builtin.bytes.mapping.withType (.arrayOf (.scalar .u8))))
    (list : ∀ (l : ListType) em m, motive l.element em → arrayMapping? c.settings em l = some m →
      motive (.list l) m)
    (record : ∀ r, (∀ f ∈ defaultFields c r, motive f.type f.mapping) →
      motive (.record r) (.struct (defaultFields c r) none (.record r)))
    (h : c.resolveKey ⟨some t, none⟩ = some m) : motive t m := by
  induction t using HostType.induct generalizing m with
  | scalar s =>
    rw [resolveKey_scalarType] at h
    exact Option.some.inj h ▸ scalar s
  | option inner ih =>
    rw [resolveKey_option] at h
    obtain ⟨found, hfound, rfl⟩ := Option.map_eq_some_iff.mp h
    exact option inner found hfound (ih hfound)
  | enum e ih =>
    rw [resolveKey_enumType] at h
    cases hu : c.resolveKey ⟨some e.underlying, none⟩ with
    | none => simp [hu, enumMapping?] at h
    | some u => exact enum e u m hu (ih hu) (hu ▸ h)
  | list l ih =>
    cases hbytes : (HostType.list l).isByteSequence with
    | true =>
      obtain rfl : l = ⟨.scalar .u8, .array⟩ := by
        simpa [HostType.isByteSequence, HostType.arrayOf] using hbytes
      rw [resolveKey_byteArray] at h
      exact Option.some.inj h ▸ byteArray
    | false =>
      rw [resolveKey_listType hbytes] at h
      obtain ⟨em, hem, hm⟩ := Option.bind_eq_some_iff.mp h
      exact list l em m (ih hem) hm
  | record r ih =>
    rw [resolveKey_recordType] at h
    obtain ⟨-, hm⟩ := Option.ite_none_right_eq_some.mp h
    obtain rfl := Option.some.inj hm
    refine record r fun f hf => ?_
    obtain ⟨member, hmember, hem, hfe⟩ := exists_member_of_defaultFields hf
    rw [hfe]
    exact ih member (List.mem_filter.mp hmember).1 hem
  | unknown => simp [resolveKey_unknown] at h

/-- The default mapping of every host type is read back. -/
theorem readsBack_of_resolveKey (h : c.resolveKey ⟨some t, none⟩ = some m) : ReadsBack c t m :=
  resolveKey_induction readsBack_scalar (fun _ _ _ hm => hm.option)
    (fun _ _ _ hu hm henum => .enum hu hm henum) readsBack_byteArray
    (fun _ _ _ hm harray => hm.list harray) (fun _ hfields => .record hfields) h

/-- The store type of a host type's default mapping is found: alone with the wire type of the
mapping, up to the escapes in names, and with the host type as the mapping itself, where names read
back. -/
theorem resolve_storeType_of_resolveType (h : c.resolveType t = some m) :
    (∃ m₀, c.resolveStoreType m.storeType = some m₀ ∧ m₀.storeType = m.storeType ∧
      WireType.ofMapping m₀ = (WireType.ofMapping m).mapNames readBack) ∧
    (c.NamesReadBack t →
      (WireType.ofMapping m).mapNames readBack = WireType.ofMapping m ∧
        c.resolve (some t) (some m.storeType) = some m) := by
  have hm : ReadsBack c t m := readsBack_of_resolveKey h
  obtain ⟨m₀, hm₀, hstore, -, hwire⟩ := hm.alone
  refine ⟨⟨m₀, ?_, hstore, hwire⟩, fun hnames => ⟨hm.names hnames, ?_⟩⟩
  · rw [resolveStoreType, resolve, Option.map_some, keyOf_nameless none hm.nameless, hm₀]
  · rw [resolve, Option.map_some, keyOf_nameless (some t) hm.nameless, hm.together hnames]

section Examples

/-- A composite record whose members have names that are quoted. -/
def order : RecordType := ⟨"Order", true, [⟨"first name", .scalar .string, true, true⟩,
  ⟨"order", .listOf (.scalar .i64), true, true⟩]⟩

/-- The fields of the record's mapping. -/
def orderFields : List Field :=
  [⟨"first name", Builtin.string.mapping, .scalar .string, none⟩,
    ⟨"order", .array Builtin.int64.mapping ⟨.scalar .i64, .list⟩ .list, .listOf (.scalar .i64),
      none⟩]

/-- Names with a blank and reserved names are read back. -/
theorem resolve_storeType_of_resolveType_quotedNames :
    (default : Catalog).resolveType (.record order) =
        some (.struct orderFields none (.record order)) ∧
      (default : Catalog).NamesReadBack (.record order) ∧
      (∃ m₀, (default : Catalog).resolveStoreType
          "STRUCT<`first name` STRING, `order` ARRAY<INT64>>" = some m₀ ∧
        WireType.ofMapping m₀ = WireType.ofMapping (.struct orderFields none (.record order))) ∧
      (default : Catalog).resolve (some (.record order))
          (some "STRUCT<`first name` STRING, `order` ARRAY<INT64>>") =
        some (.struct orderFields none (.record order)) := by
  have hlist : (default : Catalog).resolveKey ⟨some (.listOf (.scalar .i64)), none⟩ =
      some (.array Builtin.int64.mapping ⟨.scalar .i64, .list⟩ .list) := by
    rw [HostType.listOf, resolveKey_listType (by decide), resolveKey_scalarType]
    rfl
  have hfields : defaultFields default order = orderFields := by
    simp only [defaultFields, memberFields, order, RecordOf.mappedMembers, List.filter,
      Bool.and_self, List.filterMap_cons, List.filterMap_nil, resolveKey_scalarType, hlist, Option.map_some]
    rfl
  have hm : (default : Catalog).resolveType (.record order) =
      some (.struct orderFields none (.record order)) := by
    rw [← hfields]
    exact (resolveKey_recordType order).trans (if_pos ⟨rfl, by rw [hfields]; simp [orderFields]⟩)
  have hnames : (default : Catalog).NamesReadBack (.record order) := by
    have hmembers : ∀ member ∈ order.mappedMembers,
        member = ⟨"first name", .scalar .string, true, true⟩ ∨
          member = ⟨"order", .listOf (.scalar .i64), true, true⟩ := by
      simp [order, RecordOf.mappedMembers]
    intro r hr member hmember hsome
    cases hr with
    | whole => rcases hmembers member hmember with rfl | rfl <;> exact ⟨by decide, rfl⟩
    | member hinner _ h =>
      rcases hmembers _ hinner with rfl | rfl
      · cases h
      · cases h with
        | list h => cases h
  have hstore : (Mapping.struct orderFields none (.record order)).storeType =
      "STRUCT<`first name` STRING, `order` ARRAY<INT64>>" := by decide
  obtain ⟨⟨m₀, hm₀, -, hwire⟩, htogether⟩ := resolve_storeType_of_resolveType hm
  obtain ⟨hsame, hboth⟩ := htogether hnames
  rw [hstore] at hm₀ hboth
  exact ⟨hm, hnames, ⟨m₀, hm₀, hwire.trans hsame⟩, hboth⟩

/-- A composite record whose member has a name that needs an escape. -/
def ticked : RecordType := ⟨"Ticked", true, [⟨"a`b", .scalar .i64, true, true⟩]⟩

/-- The field of the record's mapping. -/
def tickedField : Field := ⟨"a`b", Builtin.int64.mapping, .scalar .i64, none⟩

/-- A field with the name as it stands in the store type, which means no member of the record. -/
def escapedField : Field := ⟨"a\\`b", Builtin.int64.mapping, .scalar .i64, none⟩

/-- A member whose name needs an escape is lost under the store type of its record's mapping. -/
theorem exists_resolve_storeType_render_ne :
    ∃ m m', (default : Catalog).resolveType (.record ticked) = some m ∧
      (default : Catalog).resolve (some (.record ticked)) (some m.storeType) = some m' ∧
      WireType.ofMapping m = .struct [("a`b", .int64)] ∧
      WireType.ofMapping m' = .struct [("a\\`b", .int64)] ∧
      Literal.render m (.record (.ofList [("a`b", .i64 1)])) = .ok "STRUCT<`a\\`b` INT64>(1)" ∧
      Literal.render m' (.record (.ofList [("a`b", .i64 1)])) =
        .ok "STRUCT<`a\\`b` INT64>(NULL)" := by
  have hfields : defaultFields default ticked = [tickedField] := by
    simp only [defaultFields, memberFields, ticked, RecordOf.mappedMembers, List.filter,
      Bool.and_self, List.filterMap_cons, List.filterMap_nil, resolveKey_scalarType,
      Option.map_some]
    rfl
  have hm : (default : Catalog).resolveType (.record ticked) =
      some (.struct [tickedField] none (.record ticked)) := by
    rw [← hfields]
    exact (resolveKey_recordType ticked).trans (if_pos ⟨rfl, by simp [hfields]⟩)
  have hstore : (Mapping.struct [tickedField] none (.record ticked)).storeType =
      "STRUCT<`a\\`b` INT64>" := by decide
  have hparse : parse? "STRUCT<`a\\`b` INT64>".toList =
      some (.struct [⟨"a\\`b".toList, "INT64".toList⟩]) := by decide
  have hkey : (default : Catalog).resolveKey
      (Key.ofField (some ticked) ⟨"a\\`b".toList, "INT64".toList⟩) =
        some Builtin.int64.mapping := resolveKey_builtin .int64
  have hm' : (default : Catalog).resolve (some (.record ticked))
      (some "STRUCT<`a\\`b` INT64>") =
        some (.struct [escapedField] (some "STRUCT<`a\\`b` INT64>") (.record ticked)) := by
    have htokens : ∀ token ∈ [(⟨"a\\`b".toList, "INT64".toList⟩ : FieldToken)],
        (default : Catalog).resolveKey (Key.ofField (some ticked) token) =
          some (fieldMapping default (some ticked) token) := by
      intro token ht
      obtain rfl := List.mem_singleton.mp ht
      rw [hkey, fieldMapping_eq hkey]
    have hstruct := resolveKey_struct (some ticked) hparse htokens
    simp only [tokenFields, List.map_cons, List.map_nil, fieldMapping_eq hkey] at hstruct
    exact hstruct
  rw [← hstore] at hm'
  exact ⟨_, _, hm, hm', rfl, rfl, rfl, rfl⟩

end Examples

end Catalog

end TypedSql
