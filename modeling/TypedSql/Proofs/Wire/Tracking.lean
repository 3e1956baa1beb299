import TypedSql.Proofs.Mapping.Documents
import TypedSql.Proofs.Wire.Conformance

/-!
# Tracking what is sent

A mapping compares values with the comparers of its parts, so that values which it finds equal are
sent alike: the parts that are compared are those that are sent. Documents are the exception. They
hold all entries of a record and the digits of decimals, while a comparer reads the members that it
knows and compares decimals as numbers.
-/

namespace TypedSql

open Result

/-- The same value, with NaN equal to NaN, one zero, and decimals as numbers. -/
inductive Value.Alike : Value → Value → Prop
  | refl (v : Value) : Alike v v
  | floats {x y : Numeral.Binary64} (h : (x.isNaN = true ∧ y.isNaN = true) ∨ x.ieeeEq y = true) :
      Alike (.f64 x) (.f64 y)
  | decimals {d e : Numeral.Scaled} (h : d.toRat = e.toRat) : Alike (.decimal d) (.decimal e)
  | bigDecimals {d e : Numeral.Scaled} (h : d.toRat = e.toRat) :
      Alike (.bigDecimal d) (.bigDecimal e)
  | json {j k : Json} (h : j.same k = true) : Alike (.json j) (.json k)
  | lists {as bs : List Value} (hlength : as.length = bs.length)
      (h : ∀ pair ∈ as.zip bs, Alike pair.1 pair.2) : Alike (.list as) (.list bs)
  | records {r s : Record} (hnames : r.names = s.names)
      (h : ∀ pair ∈ r.toList.zip s.toList, Alike pair.1.2 pair.2.2) : Alike (.record r) (.record s)

/-- Values that no converter to a scalar takes. -/
def Value.isUnconverted : Value → Bool
  | .f32 _ | .f64 _ | .decimal _ | .bigDecimal _ | .zoned _ | .json _ | .record _ => true
  | _ => false

/-- No converter takes a float. -/
theorem Value.isUnconverted_of_floatBits? {v : Value} {bits : UInt64}
    (h : v.floatBits? = some bits) : v.isUnconverted = true := by
  cases v <;> first | rfl | cases h

namespace Wire

open Comparer Value

variable {c : Comparer} {m : Mapping} {a b v : Value}

/-! ## Scalars -/

/-- A float is sent as the 64-bit float that it is compared by, or not at all. -/
theorem scalarValue_of_floatBits? (m : Mapping) (kind : ScalarKind) {bits : UInt64}
    (h : v.floatBits? = some bits) :
    (kind = .float64 ∧ ∃ x : Numeral.Binary64, x.canonicalBits = bits ∧
        scalarValue m kind v = .ok (.f64 x)) ∨
      (kind ≠ .float64 ∧ ∃ fault, scalarValue m kind v = .error fault) := by
  cases v with
  | f32 x =>
    cases kind with
    | float64 => exact Or.inl ⟨rfl, x.widen, Option.some.inj h, rfl⟩
    | _ => exact Or.inr ⟨by simp, _, rfl⟩
  | f64 x =>
    cases kind with
    | float64 => exact Or.inl ⟨rfl, x, Option.some.inj h, rfl⟩
    | _ => exact Or.inr ⟨by simp, _, rfl⟩
  | _ => cases h

/-- Items that are equal are the same byte or no bytes. -/
theorem related_byteOf (h : c.equals a b = true) : Related (· = ·) (byteOf a) (byteOf b) := by
  have hfloat {v : Value} {bits : UInt64} (hv : v.floatBits? = some bits) :
      ∃ fault, byteOf v = .error fault := by
    cases v <;> first | exact ⟨_, rfl⟩ | cases hv
  cases equated_of_equals h with
  | atom => exact related_refl (fun _ => rfl) _
  | floats ha hb => exact related_of_errors (hfloat ha) (hfloat hb)
  | _ => exact .error _ _

/-- Scalars in stored form that are equal are sent alike, or neither is sent. -/
theorem related_scalarValue {kind : ScalarKind} (h : c.Equated a b) :
    Related Alike (scalarValue m kind a) (scalarValue m kind b) := by
  cases h with
  | atom => exact related_refl .refl _
  | floats ha hb =>
    rcases scalarValue_of_floatBits? m kind ha with ⟨rfl, x, hx, hax⟩ | ⟨hkind, haf⟩
    · obtain ⟨-, y, hy, hby⟩ := (scalarValue_of_floatBits? m _ hb).resolve_right fun h => h.1 rfl
      rw [hax, hby]
      exact .ok (.floats (Numeral.Binary64.ieeeEq_of_canonicalBits (hx.trans hy.symm)))
    · obtain ⟨-, hbf⟩ := (scalarValue_of_floatBits? m _ hb).resolve_left fun h => hkind h.1
      exact related_of_errors haf hbf
  | decimals h =>
    cases kind with
    | decimal => exact .ok (.decimals (Numeral.Scaled.toRat_eq_of_sameNumber h))
    | _ => exact .error _ _
  | bigDecimals h =>
    cases kind with
    | decimal => exact .ok (.bigDecimals (Numeral.Scaled.toRat_eq_of_sameNumber h))
    | _ => exact .error _ _
  | @zoned z w h =>
    cases kind with
    | timestamp =>
      have hsame : Alike (.timestamp z.instant) (.timestamp w.instant) := h ▸ .refl _
      exact .ok hsame
    | _ => exact .error _ _
  | json h =>
    cases kind with
    | json => exact .ok (.json h)
    | _ => exact .error _ _
  | lists h =>
    cases kind with
    | bytes =>
      refine (related_mapM (h.imp fun _ _ => related_byteOf)).map fun as bs hbytes => ?_
      rw [List.forall₂_eq_eq_eq] at hbytes
      exact hbytes ▸ .refl _
    | _ => exact .error _ _
  | multi | members | entries => cases kind <;> exact .error _ _

/-! ## Prepared values -/

/-- A value that cannot be stored is not sent. -/
theorem value_of_prepare_error (h : ∃ fault, m.prepare v = .error fault) :
    ∃ fault, value m v = .error fault := by
  obtain ⟨fault, hfault⟩ := h
  obtain ⟨storeType, type, kind, facets, converter, comparer⟩ := m
  refine ⟨fault, ?_⟩
  cases kind <;> rw [value, hfault]

/-- A scalar in stored form is sent in the form of its wire type. -/
theorem value_scalar {kind : ScalarKind} {w : Value} (hkind : m.kind = .scalar kind)
    (h : m.prepare v = .ok (some w)) : value m v = scalarValue m kind w := by
  obtain ⟨storeType, type, _, facets, converter, comparer⟩ := m
  cases hkind
  rw [value, h]

/-- A list in stored form is sent item by item. -/
theorem value_array {element : Mapping} {shape materialized : Shape} {items : List Value}
    (hkind : m.kind = .array element shape materialized)
    (h : m.prepare v = .ok (some (.list items))) :
    value m v = (items.mapM (value element)).map .list := by
  obtain ⟨storeType, type, _, facets, converter, comparer⟩ := m
  cases hkind
  rw [value, h]

/-- A record in stored form is sent field by field. -/
theorem value_struct {fields : List Field} {r : Record} (hkind : m.kind = .struct fields)
    (h : m.prepare v = .ok (some (.record r))) :
    value m v = (fieldValues fields r .empty).map .record := by
  obtain ⟨storeType, type, _, facets, converter, comparer⟩ := m
  cases hkind
  rw [value, h]

/-- A value in stored form that is no list is not sent as an array. -/
theorem value_array_mismatch {element : Mapping} {shape materialized : Shape} {w : Value}
    (hkind : m.kind = .array element shape materialized) (h : m.prepare v = .ok (some w))
    (hw : w.items? = none) : ∃ fault, value m v = .error fault := by
  obtain ⟨storeType, type, _, facets, converter, comparer⟩ := m
  cases hkind
  rw [value, h]
  cases w <;> first | exact ⟨_, rfl⟩ | cases hw

/-- A value in stored form that is no record is not sent as a struct. -/
theorem value_struct_mismatch {fields : List Field} {w : Value} (hkind : m.kind = .struct fields)
    (h : m.prepare v = .ok (some w)) (hw : w.record? = none) :
    ∃ fault, value m v = .error fault := by
  obtain ⟨storeType, type, _, facets, converter, comparer⟩ := m
  cases hkind
  rw [value, h]
  cases w <;> first | exact ⟨_, rfl⟩ | cases hw

section Converted

variable (hjson : m.converter ≠ some .toJson)

include hjson

/-- Lists are stored as they are, or none of them is. -/
theorem prepare_list : (∀ items, m.prepare (.list items) = .ok (some (.list items))) ∨
    ∀ items, ∃ fault, m.prepare (.list items) = .error fault := by
  simp only [Mapping.prepare, Mapping.toStored]
  cases hconverter : m.converter with
  | none => exact Or.inl fun _ => rfl
  | some converter =>
    cases converter with
    | materialize => exact Or.inl fun _ => rfl
    | toJson => exact absurd hconverter hjson
    | _ => exact Or.inr fun _ => ⟨_, rfl⟩

/-- Values that no converter takes are stored as they are, or none of them is. -/
theorem prepare_unconverted : (∀ v, v.isUnconverted = true → m.prepare v = .ok (some v)) ∨
    ∀ v, v.isUnconverted = true → ∃ fault, m.prepare v = .error fault := by
  have hprepare {v : Value} (h : v.isUnconverted = true) :
      m.prepare v = (m.toStored v).map some := by
    cases v <;> first | rfl | cases h
  cases hconverter : m.converter with
  | none =>
    refine Or.inl fun v hv => ?_
    rw [hprepare hv, Mapping.toStored, hconverter]
    rfl
  | some converter =>
    refine Or.inr fun v hv => ?_
    obtain ⟨fault, hfault⟩ : ∃ fault, m.toStored v = .error fault := by
      rw [Mapping.toStored, hconverter]
      cases v with
      | f32 | f64 | decimal | bigDecimal | zoned | json | record =>
        cases converter <;> first | exact ⟨_, rfl⟩ | exact absurd hconverter hjson
      | _ => cases hv
    exact ⟨fault, by rw [hprepare hv, hfault]; rfl⟩

/-- Of two values that are equal only those that are stored as they are need a closer look. -/
theorem related_value_of_kept (h : c.Equated a b)
    (hkept : m.prepare a = .ok (some a) → m.prepare b = .ok (some b) →
      Related Alike (value m a) (value m b)) : Related Alike (value m a) (value m b) := by
  have hunconverted (ha : a.isUnconverted = true) (hb : b.isUnconverted = true) :
      Related Alike (value m a) (value m b) := by
    rcases prepare_unconverted hjson with hkeeps | hrefuses
    · exact hkept (hkeeps a ha) (hkeeps b hb)
    · exact related_of_errors (value_of_prepare_error (hrefuses a ha))
        (value_of_prepare_error (hrefuses b hb))
  cases h with
  | atom => exact related_refl .refl _
  | floats ha hb =>
    exact hunconverted (isUnconverted_of_floatBits? ha) (isUnconverted_of_floatBits? hb)
  | @lists as bs =>
    rcases prepare_list hjson with hkeeps | hrefuses
    · exact hkept (hkeeps as) (hkeeps bs)
    · exact related_of_errors (value_of_prepare_error (hrefuses as))
        (value_of_prepare_error (hrefuses bs))
  | multi =>
    exact related_of_errors (value_of_prepare_error ⟨_, rfl⟩) (value_of_prepare_error ⟨_, rfl⟩)
  | _ => exact hunconverted rfl rfl

end Converted

/-! ## Documents -/

/-- A value without a document is not sent as one. -/
theorem value_document_error {fault : Fault} (hjson : m.converter = some .toJson)
    (h : v.toDocument = .error fault) : ∃ fault, value m v = .error fault := by
  refine value_of_prepare_error ?_
  cases v with
  | null => cases h
  | multi => exact ⟨_, rfl⟩
  | json => cases h
  | _ =>
    refine ⟨fault, ?_⟩
    simp only [Mapping.prepare, Mapping.toStored, hjson, isNull, Bool.false_eq_true, if_false,
      Converter.toStored, h]
    rfl

/-- A value with a document is sent as that document. -/
theorem value_document {kind : ScalarKind} {j : Json} (hkind : m.kind = .scalar kind)
    (hjson : m.converter = some .toJson) (hnull : v.isNull = false) (h : v.toDocument = .ok j) :
    value m v = scalarValue m kind (.json j) := by
  refine value_scalar hkind ?_
  cases v with
  | null => cases hnull
  | multi => cases h
  | json =>
    cases h
    simp only [Mapping.prepare, Mapping.toStored, hjson]
    rfl
  | _ =>
    simp only [Mapping.prepare, Mapping.toStored, hjson, isNull, Bool.false_eq_true, if_false,
      Converter.toStored, h]
    rfl

/-- Values whose documents are the same are sent alike as documents, or neither is sent. -/
theorem related_value_document {kind : ScalarKind} (hkind : m.kind = .scalar kind)
    (hjson : m.converter = some .toJson) (hnull : a.isNull = b.isNull) (h : a.SameDocuments b) :
    Related Alike (value m a) (value m b) := by
  cases ha : a.isNull with
  | true =>
    cases a with
    | null =>
      cases b with
      | null => exact related_refl .refl _
      | _ => cases hnull
    | _ => cases ha
  | false =>
    have hb : b.isNull = false := hnull.symm.trans ha
    unfold SameDocuments at h
    generalize hj : a.toDocument = found at h
    generalize hk : b.toDocument = found' at h
    cases h with
    | error =>
      exact related_of_errors (value_document_error hjson hj) (value_document_error hjson hk)
    | ok hsame =>
      rw [value_document hkind hjson ha hj, value_document hkind hjson hb hk]
      exact related_scalarValue (c := .default) (.json hsame)

/-! ## Records -/

/-- Records with the same names and values that are alike, one by one. -/
def AlikeEntries (r s : Record) : Prop :=
  List.Forall₂ (fun x y => x.1 = y.1 ∧ Alike x.2 y.2) r.toList s.toList

/-- Values that are alike are inserted into both records at the same place. -/
theorem AlikeEntries.insert {r s : Record} (h : AlikeEntries r s) (name : String)
    (hab : Alike a b) : AlikeEntries (r.insert name a) (s.insert name b) := by
  obtain ⟨as⟩ := r
  obtain ⟨bs⟩ := s
  unfold AlikeEntries Entries.insert at *
  dsimp only at h ⊢
  induction h with
  | nil => exact .cons ⟨rfl, hab⟩ .nil
  | @cons x y _ _ hxy hrest ih =>
    obtain ⟨n, v⟩ := x
    obtain ⟨n', w⟩ := y
    obtain rfl : n = n' := hxy.1
    rw [Entries.put, Entries.put]
    split
    next => exact .cons ⟨rfl, hab⟩ hrest
    next => exact .cons hxy ih

/-- Records with values that are alike, one by one, are alike. -/
theorem AlikeEntries.alike {r s : Record} (h : AlikeEntries r s) :
    Alike (.record r) (.record s) := by
  have hnames : r.names = s.names := Entries.names_eq_iff.mpr (h.imp fun _ _ => And.left)
  exact .records hnames fun pair hpair => ((List.forall₂_iff_zip.mp h).2 hpair).2

/-- Fields whose values are sent alike make records that are alike. -/
theorem related_fieldValues {fields : List Field} {r s done done' : Record}
    (hdone : AlikeEntries done done')
    (h : ∀ f ∈ fields, Related Alike (fieldValue r f) (fieldValue s f)) :
    Related AlikeEntries (fieldValues fields r done) (fieldValues fields s done') := by
  induction fields generalizing done done' with
  | nil => exact .ok hdone
  | cons f rest ih =>
    obtain ⟨hfirst, hrest⟩ := List.forall_mem_cons.mp h
    rw [fieldValues_cons, fieldValues_cons]
    exact hfirst.bind fun a b hab => ih (hdone.insert f.name hab) hrest

end Wire

namespace Mapping

/-- `Paired m a b m' a' b'`: two values taken apart by a mapping have parts in the same place, with
the mapping of that place. -/
inductive Paired : Mapping → Value → Value → Mapping → Value → Value → Prop
  | whole {m : Mapping} {a b : Value} : Paired m a b m a b
  | item {m element m' : Mapping} {shape materialized : Shape} {as bs : List Value}
      {a b a' b' : Value} (hkind : m.kind = .array element shape materialized)
      (hmem : (a, b) ∈ as.zip bs) (h : Paired element a b m' a' b') :
      Paired m (.list as) (.list bs) m' a' b'
  | field {m m' : Mapping} {fields : List Field} {f : Field} {r s : Record} {a b a' b' : Value}
      (hkind : m.kind = .struct fields) (hf : f ∈ fields) (ha : f.extract r = some a)
      (hb : f.extract s = some b) (h : Paired f.mapping a b m' a' b') :
      Paired m (.record r) (.record s) m' a' b'

/-- Where two values are stored as documents, nothing that is written of them escapes the
comparer. -/
def SeesDocuments (m : Mapping) (a b : Value) : Prop :=
  ∀ m' a' b', Paired m a b m' a' b' → m'.converter = some .toJson → m'.comparer.SeesThrough a' b'

/-- The parts of a value are compared by the comparers of the mappings that they are sent by. -/
inductive Tracks : Mapping → Prop
  | scalar {m : Mapping} {kind : ScalarKind} (hkind : m.kind = .scalar kind) : Tracks m
  | array {m element : Mapping} {shape materialized : Shape}
      (hkind : m.kind = .array element shape materialized) (hjson : m.converter ≠ some .toJson)
      (hcomparer : m.comparer.element = element.comparer) (h : Tracks element) : Tracks m
  | struct {m : Mapping} {fields : List Field} (hkind : m.kind = .struct fields)
      (hjson : m.converter ≠ some .toJson)
      (hcomparer : m.comparer.members? =
        some (fields.map fun f => (f.memberName, f.mapping.comparer)))
      (h : ∀ f ∈ fields, Tracks f.mapping) : Tracks m

end Mapping

namespace Wire

open Comparer Value Mapping

variable {m : Mapping} {a b : Value}

/-- Lists are sent alike as arrays when their items are. -/
theorem related_value_array {c : Comparer} {element : Mapping} {shape materialized : Shape}
    (hkind : m.kind = .array element shape materialized) (hjson : m.converter ≠ some .toJson)
    (h : c.Equated a b) (hitems : ∀ as bs, a = .list as → b = .list bs →
      List.Forall₂ (fun x y => Related Alike (value element x) (value element y)) as bs) :
    Related Alike (value m a) (value m b) := by
  refine related_value_of_kept hjson h fun ha hb => ?_
  cases h with
  | atom => exact related_refl .refl _
  | @lists as bs =>
    rw [value_array hkind ha, value_array hkind hb]
    refine (related_mapM (hitems as bs rfl rfl)).map fun ws ws' hsame => ?_
    obtain ⟨hlength, hzip⟩ := List.forall₂_iff_zip.mp hsame
    exact .lists hlength fun pair hpair => hzip hpair
  | floats hx hy =>
    have hlist {v : Value} {bits : UInt64} (hv : v.floatBits? = some bits) : v.items? = none := by
      cases v <;> first | rfl | cases hv
    exact related_of_errors (value_array_mismatch hkind ha (hlist hx))
      (value_array_mismatch hkind hb (hlist hy))
  | _ =>
    exact related_of_errors (value_array_mismatch hkind ha rfl) (value_array_mismatch hkind hb rfl)

/-- Records are sent alike as structs when their fields are. -/
theorem related_value_struct {c : Comparer} {fields : List Field} (hkind : m.kind = .struct fields)
    (hjson : m.converter ≠ some .toJson) (h : c.Equated a b)
    (hfields : ∀ r s, a = .record r → b = .record s →
      ∀ f ∈ fields, Related Alike (fieldValue r f) (fieldValue s f)) :
    Related Alike (value m a) (value m b) := by
  refine related_value_of_kept hjson h fun ha hb => ?_
  cases h with
  | atom => exact related_refl .refl _
  | @members _ r s | @entries r s =>
    rw [value_struct hkind ha, value_struct hkind hb]
    exact (related_fieldValues .nil (hfields r s rfl rfl)).map fun _ _ h => h.alike
  | floats hx hy =>
    have hrecord {v : Value} {bits : UInt64} (hv : v.floatBits? = some bits) :
        v.record? = none := by
      cases v <;> first | rfl | cases hv
    exact related_of_errors (value_struct_mismatch hkind ha (hrecord hx))
      (value_struct_mismatch hkind hb (hrecord hy))
  | _ =>
    exact related_of_errors (value_struct_mismatch hkind ha rfl)
      (value_struct_mismatch hkind hb rfl)

/-- Values that are equal under the comparer of a mapping that tracks its parts are sent alike. -/
theorem related_value_of_tracks (ht : m.Tracks) (h : m.comparer.equals a b = true)
    (ha : a.WellFormed) (hb : b.WellFormed) (hsees : m.SeesDocuments a b) :
    Related Alike (value m a) (value m b) := by
  induction ht generalizing a b with
  | @scalar m kind hkind =>
    by_cases hjson : m.converter = some .toJson
    · refine related_value_document hkind hjson (equated_of_equals h).isNull_eq ?_
      exact sameDocuments_of_equals h ha hb (hsees m a b .whole hjson)
    · refine related_value_of_kept hjson (equated_of_equals h) fun hka hkb => ?_
      rw [value_scalar hkind hka, value_scalar hkind hkb]
      exact related_scalarValue (equated_of_equals h)
  | @array m element _ _ hkind hjson hcomparer _ ih =>
    refine related_value_array hkind hjson (equated_of_equals h) ?_
    rintro as bs rfl rfl
    obtain ⟨hlength, hzip⟩ := List.forall₂_iff_zip.mp (forall₂_of_equals h)
    refine List.forall₂_iff_zip.mpr ⟨hlength, fun {x y} hxy => ?_⟩
    obtain ⟨hx, hy⟩ := List.of_mem_zip hxy
    exact ih (hcomparer ▸ hzip hxy) (ha.of_mem hx) (hb.of_mem hy)
      fun _ _ _ hpart => hsees _ _ _ (.item hkind hxy hpart)
  | @struct m fields hkind hjson hcomparer _ ih =>
    refine related_value_struct hkind hjson (equated_of_equals h) ?_
    rintro r s rfl rfl f hf
    have hmember := rel_of_equals hcomparer h _ (List.mem_map_of_mem hf)
    have hextract (r : Record) : r.getIgnoringCase? f.memberName = f.extract r := rfl
    simp only [hextract] at hmember
    rw [fieldValue, fieldValue]
    cases hx : f.extract r with
    | none =>
      rw [hx] at hmember
      cases hy : f.extract s with
      | none => exact related_refl .refl _
      | some y =>
        rw [hy] at hmember
        cases hmember
    | some x =>
      rw [hx] at hmember
      cases hy : f.extract s with
      | none =>
        rw [hy] at hmember
        cases hmember
      | some y =>
        rw [hy] at hmember
        cases hmember with
        | some hxy =>
          exact ih f hf hxy (ha.of_mem (mem_parts_of_getIgnoringCase? hx))
            (hb.of_mem (mem_parts_of_getIgnoringCase? hy))
            fun _ _ _ hpart => hsees _ _ _ (.field hkind hf hx hy hpart)

end Wire

end TypedSql
