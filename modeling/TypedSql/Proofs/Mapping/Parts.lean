import TypedSql.Literal.Basic
import TypedSql.Proofs.HostType.Conformance
import TypedSql.Proofs.Result

/-!
# Parts of mapped values

Induction over mappings, and what it means for a value to be taken apart by one: null ends it, an
array takes a list and a struct takes a record, part by part, and a condition remains on every
scalar that is left in stored form.
-/

namespace TypedSql

namespace Mapping

/-- Induction over mappings, with the mappings of fields as members of their list. -/
@[induction_eliminator]
theorem induct {motive : Mapping → Prop}
    (scalar : ∀ m kind, m.kind = .scalar kind → motive m)
    (array : ∀ m element shape materialized, m.kind = .array element shape materialized →
      motive element → motive m)
    (struct : ∀ m fields, m.kind = .struct fields → (∀ f ∈ fields, motive f.mapping) → motive m)
    (m : Mapping) : motive m := by
  refine @Mapping.rec motive (fun kind => ∀ m : Mapping, m.kind = kind → motive m)
    (fun fields => ∀ f ∈ fields, motive f.mapping) (fun f => motive f.mapping)
    ?_ ?_ ?_ ?_ ?_ ?_ ?_ m
  · intro storeType type kind facets converter comparer h
    exact h _ rfl
  · intro kind m h
    exact scalar m kind h
  · intro element shape materialized ih m h
    exact array m element shape materialized h ih
  · intro fields hfields m h
    exact struct m fields h hfields
  · intro _ h
    exact absurd h List.not_mem_nil
  · rintro first rest hfirst hrest f hf
    rcases List.mem_cons.mp hf with rfl | hf
    · exact hfirst
    · exact hrest f hf
  · intro name mapping type member h
    exact h

/-- A value can be taken apart by a mapping, and every scalar left satisfies a condition. -/
inductive Accepts (leaf : Mapping → ScalarKind → Value → Prop) : Mapping → Value → Prop
  | null {m : Mapping} {v : Value} (h : m.prepare v = .ok none) : Accepts leaf m v
  | scalar {m : Mapping} {v w : Value} {kind : ScalarKind} (hkind : m.kind = .scalar kind)
      (h : m.prepare v = .ok (some w)) (hw : leaf m kind w) : Accepts leaf m v
  | array {m element : Mapping} {v : Value} {shape materialized : Shape} {items : List Value}
      (hkind : m.kind = .array element shape materialized)
      (h : m.prepare v = .ok (some (.list items)))
      (hitems : ∀ item ∈ items, Accepts leaf element item) : Accepts leaf m v
  | struct {m : Mapping} {v : Value} {fields : List Field} {r : Record}
      (hkind : m.kind = .struct fields) (h : m.prepare v = .ok (some (.record r)))
      (hfields : ∀ f ∈ fields, ∀ w, f.extract r = some w → Accepts leaf f.mapping w) :
      Accepts leaf m v

variable {leaf : Mapping → ScalarKind → Value → Prop} {m : Mapping} {v : Value}

/-- A scalar mapping takes null and the scalars that satisfy the condition. -/
theorem accepts_scalar {kind : ScalarKind} (hkind : m.kind = .scalar kind) :
    Accepts leaf m v ↔
      m.prepare v = .ok none ∨ ∃ w, m.prepare v = .ok (some w) ∧ leaf m kind w := by
  constructor
  · rintro (h | ⟨hkind', h, hw⟩ | ⟨hkind', h, hitems⟩ | ⟨hkind', h, hfields⟩)
    · exact Or.inl h
    · obtain rfl : kind = _ := by simpa [hkind] using hkind'
      exact Or.inr ⟨_, h, hw⟩
    · simp [hkind] at hkind'
    · simp [hkind] at hkind'
  · rintro (h | ⟨w, h, hw⟩)
    · exact .null h
    · exact .scalar hkind h hw

/-- An array mapping takes null and lists of what its element mapping takes. -/
theorem accepts_array {element : Mapping} {shape materialized : Shape}
    (hkind : m.kind = .array element shape materialized) :
    Accepts leaf m v ↔ m.prepare v = .ok none ∨
      ∃ items, m.prepare v = .ok (some (.list items)) ∧
        ∀ item ∈ items, Accepts leaf element item := by
  constructor
  · rintro (h | ⟨hkind', h, hw⟩ | ⟨hkind', h, hitems⟩ | ⟨hkind', h, hfields⟩)
    · exact Or.inl h
    · simp [hkind] at hkind'
    · simp only [hkind, KindOf.array.injEq] at hkind'
      obtain ⟨rfl, -, -⟩ := hkind'
      exact Or.inr ⟨_, h, hitems⟩
    · simp [hkind] at hkind'
  · rintro (h | ⟨items, h, hitems⟩)
    · exact .null h
    · exact .array hkind h hitems

/-- A struct mapping takes null and records with entries that its fields take. -/
theorem accepts_struct {fields : List Field} (hkind : m.kind = .struct fields) :
    Accepts leaf m v ↔ m.prepare v = .ok none ∨
      ∃ r, m.prepare v = .ok (some (.record r)) ∧
        ∀ f ∈ fields, ∀ w, f.extract r = some w → Accepts leaf f.mapping w := by
  constructor
  · rintro (h | ⟨hkind', h, hw⟩ | ⟨hkind', h, hitems⟩ | ⟨hkind', h, hfields⟩)
    · exact Or.inl h
    · simp [hkind] at hkind'
    · simp [hkind] at hkind'
    · obtain rfl : fields = _ := by simpa [hkind] using hkind'
      exact Or.inr ⟨_, h, hfields⟩
  · rintro (h | ⟨r, h, hfields⟩)
    · exact .null h
    · exact .struct hkind h hfields

/-- Equivalent conditions on scalars take the same values. -/
theorem accepts_congr {leaf' : Mapping → ScalarKind → Value → Prop}
    (h : ∀ m kind w, leaf m kind w ↔ leaf' m kind w) : Accepts leaf m v ↔ Accepts leaf' m v := by
  have heq : leaf = leaf' := by
    funext m kind w
    exact propext (h m kind w)
  rw [heq]

/-- A value satisfies two conditions part by part when it satisfies each. -/
theorem accepts_and {leaf' : Mapping → ScalarKind → Value → Prop} :
    Accepts (fun m kind w => leaf m kind w ∧ leaf' m kind w) m v ↔
      Accepts leaf m v ∧ Accepts leaf' m v := by
  constructor
  · intro h
    induction h with
    | null h => exact ⟨.null h, .null h⟩
    | scalar hkind h hw => exact ⟨.scalar hkind h hw.1, .scalar hkind h hw.2⟩
    | array hkind h _ ih =>
      exact ⟨.array hkind h fun item hmem => (ih item hmem).1,
        .array hkind h fun item hmem => (ih item hmem).2⟩
    | struct hkind h _ ih =>
      exact ⟨.struct hkind h fun f hf w hw => (ih f hf w hw).1,
        .struct hkind h fun f hf w hw => (ih f hf w hw).2⟩
  · rintro ⟨hleft, hright⟩
    induction hleft with
    | null h => exact .null h
    | scalar hkind h hw =>
      rw [accepts_scalar hkind] at hright
      rcases hright with hnone | ⟨w', h', hw'⟩
      · simp [h] at hnone
      · obtain rfl : _ = w' := by simpa [h] using h'
        exact .scalar hkind h ⟨hw, hw'⟩
    | array hkind h _ ih =>
      rw [accepts_array hkind] at hright
      rcases hright with hnone | ⟨items', h', hitems'⟩
      · simp [h] at hnone
      · obtain rfl : _ = items' := by simpa [h] using h'
        exact .array hkind h fun item hmem => ih item hmem (hitems' item hmem)
    | struct hkind h _ ih =>
      rw [accepts_struct hkind] at hright
      rcases hright with hnone | ⟨r', h', hfields'⟩
      · simp [h] at hnone
      · obtain rfl : _ = r' := by simpa [h] using h'
        exact .struct hkind h fun f hf w hw => ih f hf w hw (hfields' f hf w hw)

/-! ## Parts -/

/-- `Part m v m' v'`: a value taken apart by a mapping has the part `v'` with the mapping `m'`. -/
inductive Part : Mapping → Value → Mapping → Value → Prop
  | whole {m : Mapping} {v : Value} : Part m v m v
  | item {m element m' : Mapping} {v item v' : Value} {shape materialized : Shape}
      {items : List Value} (hkind : m.kind = .array element shape materialized)
      (h : m.prepare v = .ok (some (.list items))) (hitem : item ∈ items)
      (hpart : Part element item m' v') : Part m v m' v'
  | field {m m' : Mapping} {v w v' : Value} {fields : List Field} {f : Field} {r : Record}
      (hkind : m.kind = .struct fields) (h : m.prepare v = .ok (some (.record r)))
      (hf : f ∈ fields) (hw : f.extract r = some w) (hpart : Part f.mapping w m' v') :
      Part m v m' v'

/-- Every part that is stored as a JSON document has finite floats only. -/
def FiniteDocuments (m : Mapping) (v : Value) : Prop :=
  ∀ m' v', Part m v m' v' → m'.converter = some .toJson → v'.Finite

/-- Items of a value with finite documents have finite documents. -/
theorem FiniteDocuments.item {element : Mapping} {shape materialized : Shape}
    {items : List Value} (hfinite : FiniteDocuments m v)
    (hkind : m.kind = .array element shape materialized)
    (h : m.prepare v = .ok (some (.list items))) {item : Value} (hitem : item ∈ items) :
    FiniteDocuments element item :=
  fun _ _ hpart => hfinite _ _ (.item hkind h hitem hpart)

/-- Fields of a value with finite documents have finite documents. -/
theorem FiniteDocuments.field {fields : List Field} {r : Record}
    (hfinite : FiniteDocuments m v) (hkind : m.kind = .struct fields)
    (h : m.prepare v = .ok (some (.record r))) {f : Field} (hf : f ∈ fields) {w : Value}
    (hw : f.extract r = some w) : FiniteDocuments f.mapping w :=
  fun _ _ hpart => hfinite _ _ (.field hkind h hf hw hpart)

/-! ## Mappings that differ in nothing that is stored -/

@[simp]
theorem withFacets_type (m : Mapping) (facets : Facets) : (m.withFacets facets).type = m.type := rfl

@[simp]
theorem withFacets_kind (m : Mapping) (facets : Facets) : (m.withFacets facets).kind = m.kind := rfl

@[simp]
theorem withFacets_converter (m : Mapping) (facets : Facets) :
    (m.withFacets facets).converter = m.converter := rfl

/-- The facets that a store type shows change neither the host type nor what is stored. -/
theorem withStoreFacets_alike (m : Mapping) (store : List Char) :
    (m.withStoreFacets store).type = m.type ∧ (m.withStoreFacets store).kind = m.kind ∧
      (m.withStoreFacets store).converter = m.converter := by
  unfold withStoreFacets
  split
  · split <;> simp
  · simp

section Alike

variable {m' : Mapping} (hkind : m.kind = m'.kind) (hconverter : m.converter = m'.converter)

include hconverter in
/-- Mappings with the same converter store the same. -/
theorem prepare_congr (v : Value) : m.prepare v = m'.prepare v := by
  cases v <;> simp only [prepare, toStored, hconverter]

include hkind hconverter

/-- Mappings of the same kind and converter take the same values. -/
theorem Accepts.of_alike {p : ScalarKind → Value → Prop}
    (h : Accepts (fun _ kind w => p kind w) m v) : Accepts (fun _ kind w => p kind w) m' v := by
  cases h with
  | null h => exact .null (prepare_congr hconverter v ▸ h)
  | scalar hscalar h hw => exact .scalar (hkind ▸ hscalar) (prepare_congr hconverter v ▸ h) hw
  | array harray h hitems => exact .array (hkind ▸ harray) (prepare_congr hconverter v ▸ h) hitems
  | struct hstruct h hfields =>
    exact .struct (hkind ▸ hstruct) (prepare_congr hconverter v ▸ h) hfields

/-- Mappings of the same kind and converter store the same documents. -/
theorem FiniteDocuments.of_alike (h : FiniteDocuments m v) : FiniteDocuments m' v := by
  intro n w hpart hjson
  cases hpart with
  | whole => exact h m v .whole (hconverter.trans hjson)
  | item harray hv hitem hpart =>
    have hprepare := (prepare_congr hconverter v).trans hv
    exact h n w (.item (hkind.trans harray) hprepare hitem hpart) hjson
  | field hstruct hv hf hw hpart =>
    have hprepare := (prepare_congr hconverter v).trans hv
    exact h n w (.field (hkind.trans hstruct) hprepare hf hw hpart) hjson

end Alike

end Mapping

end TypedSql
