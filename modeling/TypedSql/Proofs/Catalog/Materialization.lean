import TypedSql.Proofs.Catalog.WellFormed

/-!
# Materialized arrays

Sequences that are only declared by an interface are given the shape that the settings name. That is
a concrete shape for every settings document but those that name the abstract shape itself, which
are read as well: under these an abstract sequence is converted from its own shape to the same.
-/

namespace TypedSql

/-! ## Settings documents -/

namespace Settings

/-- The shapes that go by a name are the concrete ones and the abstract one. -/
theorem shapeNamed?_some {name : String} {shape : Shape} (h : shapeNamed? name = some shape) :
    shape.isConcrete = true ∨ shape = .sequence := by
  unfold shapeNamed? at h
  split at h
  next =>
    cases h
    exact .inl rfl
  next =>
    cases h
    exact .inl rfl
  next =>
    cases h
    exact .inr rfl
  next => cases h

/-- The shape of abstract sequences can be named. -/
def Nameable (s : Settings) : Prop :=
  s.materialization.isConcrete = true ∨ s.materialization = .sequence

/-- One value of a document leaves a shape that can be named. -/
theorem Nameable.set? {s s' : Settings} (hs : s.Nameable) {key : Key} {value : Json}
    (h : s.set? key value = some s') : s'.Nameable := by
  unfold Settings.set? at h
  cases key with
  | materialization =>
    obtain ⟨shape, hshape, rfl⟩ := Option.map_eq_some_iff.mp h
    unfold shapeOf? at hshape
    split at hshape
    next => exact shapeNamed?_some hshape
    next => exact shapeNamed?_some hshape
    next => cases hshape
  | marker | inlineConstants | numericFacets | bigNumericFacets =>
    obtain ⟨_, -, rfl⟩ := Option.map_eq_some_iff.mp h
    exact hs

/-- The members of an object leave a shape that can be named. -/
theorem Nameable.ofMembers? {members : List (String × Json)} {seen : List Key} {s s' : Settings}
    (hs : s.Nameable) (h : ofMembers? seen s members = some s') : s'.Nameable := by
  induction members generalizing seen s with
  | nil =>
    obtain rfl := Option.some.inj h
    exact hs
  | cons member rest ih =>
    obtain ⟨name, value⟩ := member
    obtain ⟨key, -, h⟩ := Option.bind_eq_some_iff.mp h
    obtain ⟨-, -, h⟩ := Option.bind_eq_some_iff.mp h
    obtain ⟨next, hnext, h⟩ := Option.bind_eq_some_iff.mp h
    exact ih (hs.set? hnext) h

/-- The items of an array leave a shape that can be named. -/
theorem Nameable.ofItems? {items : List Json} {keys : List Key} {s s' : Settings}
    (hs : s.Nameable) (h : ofItems? s keys items = some s') : s'.Nameable := by
  induction items generalizing keys s with
  | nil =>
    obtain rfl : s = s' := by cases keys <;> exact Option.some.inj h
    exact hs
  | cons value rest ih =>
    cases keys with
    | nil => cases h
    | cons key keys =>
      obtain ⟨next, hnext, h⟩ := Option.bind_eq_some_iff.mp h
      exact ih (hs.set? hnext) h

/-- The settings of a document give abstract sequences a concrete shape, or the abstract one. -/
theorem nameable_of_read {text : String} {s : Settings} (h : read text = .ok s) : s.Nameable := by
  have hdefault : default.Nameable := .inl rfl
  unfold read at h
  extract_lets found at h
  cases hfound : found with
  | none =>
    rw [hfound] at h
    cases h
  | some s' =>
    rw [hfound] at h
    obtain rfl := Except.ok.inj h
    unfold found at hfound
    split at hfound
    next => exact hdefault.ofMembers? hfound
    next => exact hdefault.ofItems? hfound
    next => cases hfound

end Settings

/-! ## Arrays at any depth -/

namespace Mapping

/-- An array is declared in a shape and given a shape by a convention: values of an abstract shape
are converted to the shape that they are given, and others are left as they are. -/
structure ArrayBy (m : Mapping) (convention shape given : Shape) : Prop where
  declared : ∃ l, m.type = .list l ∧ l.shape = shape
  conventional : given = shape.materialize convention
  converter : m.converter = if shape.isConcrete then none else some (.materialize shape given)

/-- All arrays in a mapping, at any depth, are given their shapes by a convention. -/
def ArraysBy (m : Mapping) (convention : Shape) : Prop :=
  ∀ part element shape given, Within part m → part.kind = .array element shape given →
    part.ArrayBy convention shape given

variable {m m' : Mapping} {convention : Shape}

/-- There are no arrays in a scalar. -/
theorem arraysBy_scalar {kind : ScalarKind} (hkind : m.kind = .scalar kind) :
    m.ArraysBy convention := by
  intro part element shape given hpart hpartKind
  cases hpart with
  | whole => cases hkind.symm.trans hpartKind
  | element hkind' => cases hkind.symm.trans hkind'
  | field hkind' => cases hkind.symm.trans hkind'

/-- The same arrays are in mappings of the same kind, host type and converter. -/
theorem ArraysBy.congr (h : m.ArraysBy convention) (hkind : m'.kind = m.kind)
    (htype : m'.type = m.type) (hconverter : m'.converter = m.converter) :
    m'.ArraysBy convention := by
  intro part element shape given hpart hpartKind
  cases hpart with
  | whole =>
    obtain ⟨hdeclared, hgiven, hown⟩ := h m element shape given .whole (hkind ▸ hpartKind)
    exact ⟨htype ▸ hdeclared, hgiven, hconverter.trans hown⟩
  | element hkind' hpart =>
    exact h part element shape given (.element (hkind ▸ hkind') hpart) hpartKind
  | field hkind' hf hpart =>
    exact h part element shape given (.field (hkind ▸ hkind') hf hpart) hpartKind

/-- The arrays in an array are itself and those in its elements. -/
theorem ArraysBy.array {element : Mapping} (h : element.ArraysBy convention) (l : ListType) :
    (Mapping.array element l convention).ArraysBy convention := by
  intro part inner shape given hpart hpartKind
  cases hpart with
  | whole =>
    cases hpartKind
    exact ⟨⟨l, rfl, rfl⟩, rfl, rfl⟩
  | element hkind hpart =>
    cases hkind
    exact h part inner shape given hpart hpartKind
  | field hkind => cases hkind

/-- The arrays in a struct are those in its fields. -/
theorem arraysBy_struct {fields : List Field} (h : ∀ f ∈ fields, f.mapping.ArraysBy convention)
    (storeType : Option String) (type : HostType) :
    (Mapping.struct fields storeType type).ArraysBy convention := by
  intro part element shape given hpart hpartKind
  cases hpart with
  | whole => cases hpartKind
  | element hkind => cases hkind
  | field hkind hf hpart =>
    cases hkind
    exact h _ hf part element shape given hpart hpartKind

end Mapping

namespace Catalog

open Mapping

variable {c : Catalog} {k : Key} {m : Mapping}

/-- There are no arrays in a mapping that shows its facets. -/
theorem Shows.arraysBy {b : Builtin} (h : Shows m b) (convention : Shape) :
    m.ArraysBy convention := by
  obtain ⟨kind, hkind⟩ : ∃ kind, b.mapping.kind = .scalar kind := by cases b <;> exact ⟨_, rfl⟩
  exact arraysBy_scalar (h.kind.trans hkind)

/-- All arrays in a mapping that is found are given their shapes by the settings. -/
theorem arraysBy_of_resolves (h : Resolves c k m) : m.ArraysBy c.settings.materialization := by
  induction h with
  | option _ ih => exact ih.congr rfl rfl rfl
  | enum hu hm =>
    -- the converter is replaced, which does no harm in a scalar
    obtain ⟨hinteger, rfl⟩ := enumMapping?_some hm
    rcases storesIntegers_of_resolves hu hinteger with hkind | hkind
    · exact arraysBy_scalar hkind
    · exact arraysBy_scalar hkind
  | @struct record _ _ _ _ _ ih =>
    refine arraysBy_struct (fun f hf => ?_) _ _
    obtain ⟨token, htoken, rfl⟩ := List.mem_map.mp hf
    rw [structField_mapping]
    exact ih token htoken
  | record _ _ _ ih =>
    refine arraysBy_struct (fun f hf => ?_) _ _
    obtain ⟨member, hmember, hfound⟩ := List.mem_filterMap.mp hf
    obtain ⟨mapping, hmapping, rfl⟩ := Option.map_eq_some_iff.mp hfound
    exact ih member hmember mapping hmapping
  | array _ _ hm ih =>
    obtain rfl := arrayMapping?_some hm
    exact ih.array _
  | list _ _ hm ih =>
    obtain rfl := arrayMapping?_some hm
    exact ih.array _
  | named hm =>
    obtain ⟨b, rfl⟩ := exists_of_scalarNamed? hm
    exact ((shows_builtin b).withStoreFacets _).arraysBy _
  | pair hstore hm =>
    obtain ⟨-, -, b, hb⟩ := storeType_of_scalarPair? hstore hm
    exact hb.arraysBy _
  | builtin hm =>
    obtain ⟨b, hb⟩ := bare_of_ofHostType? hm
    exact hb.shows.arraysBy _

/-- Under the settings of any document every array that is found, at any depth, is declared in a
shape, and is converted from that shape to the one that it is given exactly when the declared one is
not concrete. The shape that it is given is concrete, unless the document gives the abstract shape
to abstract sequences. -/
theorem materializes_iff {text : String} {s : Settings} (hread : Settings.read text = .ok s)
    {type : Option HostType} {store : Option String}
    (hm : (Catalog.mk s).resolve type store = some m) {part element : Mapping} {shape given : Shape}
    (hpart : Within part m) (hkind : part.kind = .array element shape given) :
    (∃ l, part.type = .list l ∧ l.shape = shape) ∧
      part.converter = (if shape.isConcrete then none else some (.materialize shape given)) ∧
      (given.isConcrete = true ↔ shape.isConcrete = true ∨ s.materialization ≠ .sequence) := by
  obtain ⟨hdeclared, rfl, hconverter⟩ :=
    arraysBy_of_resolves (resolves_of_resolveKey hm) part element shape given hpart hkind
  refine ⟨hdeclared, hconverter, ?_⟩
  unfold Shape.materialize
  split
  next hconcrete => exact iff_of_true hconcrete (.inl hconcrete)
  next habstract =>
    rw [or_iff_right habstract]
    rcases Settings.nameable_of_read hread with hconcrete | hsequence
    · refine iff_of_true hconcrete fun hsequence => ?_
      rw [hsequence] at hconcrete
      cases hconcrete
    · rw [hsequence]
      exact iff_of_false Bool.false_ne_true fun hne => hne rfl

section Examples

/-- Numbers that are only declared as a sequence. -/
def readings : ListType := ⟨.scalar .i64, .sequence⟩

/-- A sequence of numbers has a mapping under all settings. -/
theorem resolve_readings (c : Catalog) : c.resolve (some (.list readings)) none =
    some (.array Builtin.int64.mapping readings c.settings.materialization) := by
  refine (resolveKey_listType (by rfl)).trans ?_
  rw [readings, resolveKey_scalarType]
  rfl

/-- Under settings that name arrays a sequence is converted to an array. -/
theorem materializes_iff_array :
    ∃ s m, Settings.read "\x7b\"sequence_materialization\": \"array\"\x7d" = .ok s ∧
      (Catalog.mk s).resolve (some (.list readings)) none = some m ∧
      m.kind = .array Builtin.int64.mapping .sequence .array ∧
      m.converter = some (.materialize .sequence .array) ∧ Shape.array.isConcrete = true := by
  have hread : Settings.read "\x7b\"sequence_materialization\": \"array\"\x7d" =
      .ok { Settings.default with materialization := .array } := by cbv
  have hm := resolve_readings ⟨{ Settings.default with materialization := .array }⟩
  obtain ⟨-, hconverter, hconcrete⟩ := materializes_iff hread hm .whole rfl
  exact ⟨_, _, hread, hm, rfl, hconverter, hconcrete.mpr (.inr (by decide))⟩

/-- Settings can name the abstract shape, which sequences are then given. -/
theorem exists_not_isConcrete :
    ∃ s m, Settings.read "\x7b\"sequence_materialization\": \"sequence\"\x7d" = .ok s ∧
      (Catalog.mk s).resolve (some (.list readings)) none = some m ∧
      m.kind = .array Builtin.int64.mapping .sequence .sequence ∧
      m.converter = some (.materialize .sequence .sequence) ∧
      Shape.sequence.isConcrete = false := by
  have hread : Settings.read "\x7b\"sequence_materialization\": \"sequence\"\x7d" =
      .ok { Settings.default with materialization := .sequence } := by cbv
  exact ⟨_, _, hread, resolve_readings _, rfl, rfl, rfl⟩

end Examples

end Catalog

end TypedSql
