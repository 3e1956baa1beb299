import Mathlib.Data.List.Forall2
import TypedSql.Proofs.Catalog.Lookup
import TypedSql.Proofs.Mapping.Parts
import TypedSql.Proofs.Wire.FieldNames

/-!
# Conformance of parameters

A value that is sent as a parameter conforms to the wire type of its mapping, except for structs
with fields of the same name: the entries of a record are kept by name, so a repeated field takes
the place of the first one. Conformance at every level comes down to fields with distinct names.
-/

namespace TypedSql

/-! ## Conformance -/

namespace WireType

/-- The host types in which a scalar is sent. -/
def scalarTypes : WireType → List ScalarType
  | .bool => [.bool]
  | .int64 => [.i64]
  | .float64 => [.f64]
  | .numeric | .bigNumeric => [.decimal, .bigDecimal]
  | .string => [.string]
  | .bytes => [.bytes]
  | .date => [.date]
  | .time => [.time]
  | .dateTime => [.dateTime]
  | .timestamp => [.timestamp]
  | .json => [.json]
  | .geography => [.geography]
  | .struct _ | .array _ => []

/-- A value has the shape of a wire type: null anywhere, a scalar of its own host type, a list of
conforming items, and a record with one conforming entry for each field, in order and by name. -/
inductive Conforms : WireType → Value → Prop
  | null {t : WireType} : Conforms t .null
  | scalar {t : WireType} {v : Value} {s : ScalarType} (h : v.scalarType? = some s)
      (hs : s ∈ t.scalarTypes) : Conforms t v
  | array {element : WireType} {items : List Value} (h : ∀ item ∈ items, Conforms element item) :
      Conforms (.array element) (.list items)
  | struct {fields : List (String × WireType)} {r : Record}
      (hnames : r.names = fields.map Prod.fst)
      (h : ∀ pair ∈ fields.zip r.toList, Conforms pair.1.2 pair.2.2) :
      Conforms (.struct fields) (.record r)

/-- A list conforms when its items do. -/
theorem conforms_array {element : WireType} {items : List Value} :
    (WireType.array element).Conforms (.list items) ↔ ∀ item ∈ items, element.Conforms item := by
  constructor
  · rintro (_ | ⟨-, hs⟩ | h)
    · exact absurd hs List.not_mem_nil
    · exact h
  · exact .array

/-- A record conforms when it has the names of the fields and its entries conform. -/
theorem conforms_struct {fields : List (String × WireType)} {r : Record} :
    (WireType.struct fields).Conforms (.record r) ↔ r.names = fields.map Prod.fst ∧
      ∀ pair ∈ fields.zip r.toList, pair.1.2.Conforms pair.2.2 := by
  constructor
  · rintro (_ | ⟨-, hs⟩ | _ | ⟨hnames, h⟩)
    · exact absurd hs List.not_mem_nil
    · exact ⟨hnames, h⟩
  · rintro ⟨hnames, h⟩
    exact .struct hnames h

end WireType

namespace Mapping

/-- Structs that a value is taken apart by have fields with distinct names. -/
def DistinctFields (m : Mapping) (v : Value) : Prop :=
  ∀ m' v', Part m v m' v' → ∀ fields r, m'.kind = .struct fields →
    m'.prepare v' = .ok (some (.record r)) → (fields.map (·.name)).Nodup

variable {m : Mapping} {v : Value}

/-- Scalars have no fields. -/
theorem distinctFields_scalar {kind : ScalarKind} (hkind : m.kind = .scalar kind) :
    m.DistinctFields v := by
  intro m' v' hpart fields r hstruct _
  cases hpart with
  | whole => simp [hkind] at hstruct
  | item harray => simp [hkind] at harray
  | field hstruct' => simp [hkind] at hstruct'

/-- Null has no fields. -/
theorem distinctFields_null (h : m.prepare v = .ok none) : m.DistinctFields v := by
  intro m' v' hpart fields r _ hprepare
  cases hpart with
  | whole => simp [h] at hprepare
  | item _ hitems => simp [h] at hitems
  | field _ hrecord => simp [h] at hrecord

/-- A list has distinct fields when its items have. -/
theorem distinctFields_array {element : Mapping} {shape materialized : Shape} {items : List Value}
    (hkind : m.kind = .array element shape materialized)
    (h : m.prepare v = .ok (some (.list items))) :
    m.DistinctFields v ↔ ∀ item ∈ items, element.DistinctFields item := by
  constructor
  · intro hdistinct item hitem m' v' hpart
    exact hdistinct m' v' (.item hkind h hitem hpart)
  · intro hitems m' v' hpart fields r hstruct hprepare
    cases hpart with
    | whole => simp [hkind] at hstruct
    | item harray hlist hitem hpart =>
      simp only [hkind, KindOf.array.injEq] at harray
      obtain ⟨rfl, -, -⟩ := harray
      obtain rfl : items = _ := by simpa [h] using hlist
      exact hitems _ hitem m' v' hpart fields r hstruct hprepare
    | field hstruct' => simp [hkind] at hstruct'

/-- A record has distinct fields when its struct has and its entries have. -/
theorem distinctFields_struct {fields : List Field} {r : Record}
    (hkind : m.kind = .struct fields) (h : m.prepare v = .ok (some (.record r))) :
    m.DistinctFields v ↔ (fields.map (·.name)).Nodup ∧
      ∀ f ∈ fields, ∀ w, f.extract r = some w → f.mapping.DistinctFields w := by
  constructor
  · intro hdistinct
    refine ⟨hdistinct m v .whole fields r hkind h, fun f hf w hw m' v' hpart => ?_⟩
    exact hdistinct m' v' (.field hkind h hf hw hpart)
  · rintro ⟨hnames, hfields⟩ m' v' hpart fields' r' hstruct hprepare
    cases hpart with
    | whole =>
      obtain rfl : fields = fields' := by simpa [hkind] using hstruct
      exact hnames
    | item harray => simp [hkind] at harray
    | field hstruct' hrecord hf hw hpart =>
      obtain rfl : fields = _ := by simpa [hkind] using hstruct'
      obtain rfl : r = _ := by simpa [h] using hrecord
      exact hfields _ hf _ hw m' v' hpart fields' r' hstruct hprepare

end Mapping

/-! ## Values as they are sent -/

namespace Wire

/-- The host types in which decimals are sent do not depend on their size. -/
theorem scalarTypes_ofScalar (big : Bool) (kind : ScalarKind) :
    (WireType.ofScalar big kind).scalarTypes = (WireType.ofScalar true kind).scalarTypes := by
  cases big <;> cases kind <;> rfl

/-- A scalar is sent in a host type of its wire type. -/
theorem conforms_scalarValue {m : Mapping} {kind : ScalarKind} {big : Bool} {v w : Value}
    (h : scalarValue m kind v = .ok w) : (WireType.ofScalar big kind).Conforms w := by
  have hsent : ∃ s, w.scalarType? = some s ∧ s ∈ (WireType.ofScalar true kind).scalarTypes := by
    unfold scalarValue at h
    split at h
    case h_3 | h_9 =>
      -- integers, as such and as decimals
      split at h
      · cases h
        exact ⟨_, rfl, by decide⟩
      · cases h
    case h_14 items =>
      -- a list of bytes
      cases hbytes : items.mapM byteOf with
      | error => simp [hbytes, Except.map] at h
      | ok bytes =>
        rw [hbytes] at h
        cases h
        exact ⟨_, rfl, by decide⟩
    all_goals
      cases h
      all_goals exact ⟨_, rfl, by decide⟩
  obtain ⟨s, hs, hmem⟩ := hsent
  exact .scalar hs (scalarTypes_ofScalar big kind ▸ hmem)

/-- Each item has a result where all of them have. -/
theorem forall₂_of_mapM {α β : Type} {f : α → Result β} {items : List α} {results : List β}
    (h : items.mapM f = .ok results) : List.Forall₂ (fun a b => f a = .ok b) items results := by
  induction items generalizing results with
  | nil =>
    cases h
    exact .nil
  | cons first rest ih =>
    rw [List.mapM_cons] at h
    obtain ⟨b, hfirst, h⟩ := Result.bind_eq_ok.mp h
    obtain ⟨others, hrest, h⟩ := Result.bind_eq_ok.mp h
    cases h
    exact .cons hfirst (ih hrest)

/-- What holds of the results of items follows item by item. -/
theorem forall_mem_iff_of_forall₂ {α β : Type} {R : α → β → Prop} {P : α → Prop} {Q : β → Prop}
    {items : List α} {results : List β} (h : List.Forall₂ R items results)
    (hiff : ∀ a b, R a b → (Q b ↔ P a)) : (∀ b ∈ results, Q b) ↔ ∀ a ∈ items, P a := by
  induction h with
  | nil => simp
  | cons hab _ ih => rw [List.forall_mem_cons, List.forall_mem_cons, hiff _ _ hab, ih]

/-- The value that is sent for a field of a record. -/
def fieldValue (r : Record) (f : Field) : Result Value :=
  match f.extract r with
  | none => .ok .null
  | some v => value f.mapping v

/-- The value of a field conforms when its member's value does, or when there is none. -/
theorem conforms_fieldValue_iff {r : Record} {f : Field} {w : Value}
    (hvalue : ∀ v w, value f.mapping v = .ok w →
      ((WireType.ofMapping f.mapping).Conforms w ↔ f.mapping.DistinctFields v))
    (h : fieldValue r f = .ok w) : (WireType.ofMapping f.mapping).Conforms w ↔
      ∀ v, f.extract r = some v → f.mapping.DistinctFields v := by
  rw [fieldValue] at h
  cases hv : f.extract r with
  | none =>
    rw [hv] at h
    cases h
    exact iff_of_true .null fun _ hsome => nomatch hsome
  | some v =>
    rw [hv] at h
    rw [hvalue v w h]
    simp only [Option.some.injEq, forall_eq']

/-- Fields are sent one after the other. -/
theorem fieldValues_cons (f : Field) (rest : List Field) (r done : Record) :
    fieldValues (f :: rest) r done =
      fieldValue r f >>= fun v => fieldValues rest r (done.insert f.name v) := by
  obtain ⟨name, mapping, type, member⟩ := f
  rw [fieldValues, fieldValue]
  cases Field.extract ⟨name, mapping, type, member⟩ r with
  | none => rfl
  | some v => cases hv : value mapping v <;> simp [hv, Bind.bind, Except.bind]

/-- An entry that is sent for a field of a record. -/
def SentAs (r : Record) (f : Field) (entry : String × Value) : Prop :=
  entry.1 = f.name ∧ fieldValue r f = .ok entry.2

/-- The fields of a record are sent as entries that are inserted in order. -/
theorem entries_of_fieldValues {fields : List Field} {r done out : Record}
    (h : fieldValues fields r done = .ok out) : ∃ entries, List.Forall₂ (SentAs r) fields entries ∧
      out = entries.foldl (fun r entry => r.insert entry.1 entry.2) done := by
  induction fields generalizing done with
  | nil =>
    cases h
    exact ⟨[], .nil, rfl⟩
  | cons f rest ih =>
    rw [fieldValues_cons] at h
    obtain ⟨v, hv, hrest⟩ := Result.bind_eq_ok.mp h
    obtain ⟨entries, hentries, hout⟩ := ih hrest
    exact ⟨(f.name, v) :: entries, .cons ⟨rfl, hv⟩ hentries, hout⟩

section Record

variable {fields : List Field} {r : Record} {entries : List (String × Value)}
  (hsent : List.Forall₂ (SentAs r) fields entries)

include hsent

/-- Entries have the names of their fields. -/
theorem names_of_sentAs : entries.map Prod.fst = fields.map (·.name) := by
  induction hsent with
  | nil => rfl
  | cons hentry _ ih => rw [List.map_cons, List.map_cons, hentry.1, ih]

/-- Entries conform to the types of their fields, field by field. -/
theorem conforms_zip_iff {P : Field → Prop}
    (hfield : ∀ f ∈ fields, ∀ w, fieldValue r f = .ok w →
      ((WireType.ofMapping f.mapping).Conforms w ↔ P f)) :
    (∀ pair ∈ (WireType.ofFields fields).zip entries, pair.1.2.Conforms pair.2.2) ↔
      ∀ f ∈ fields, P f := by
  induction hsent with
  | nil => simp [WireType.ofFields]
  | @cons f entry rest others hentry _ ih =>
    obtain ⟨hfirst, hothers⟩ := List.forall_mem_cons.mp hfield
    rw [WireType.ofFields, List.zip_cons_cons, List.forall_mem_cons, List.forall_mem_cons,
      ih hothers]
    exact and_congr (hfirst _ hentry.2) Iff.rfl

/-- A record that is sent conforms when its fields have distinct names and conform. -/
theorem conforms_record_iff {P : Field → Prop}
    (hfield : ∀ f ∈ fields, ∀ w, fieldValue r f = .ok w →
      ((WireType.ofMapping f.mapping).Conforms w ↔ P f)) :
    (WireType.struct (WireType.ofFields fields)).Conforms (.record (.ofList entries)) ↔
      (fields.map (·.name)).Nodup ∧ ∀ f ∈ fields, P f := by
  have hnames := names_of_sentAs hsent
  have hfields : (WireType.ofFields fields).map Prod.fst = fields.map (·.name) := by
    rw [WireType.ofFields_eq, List.map_map]
    rfl
  rw [WireType.conforms_struct, hfields]
  -- with distinct names every entry stays, otherwise the names of the record are too few
  by_cases hdistinct : (fields.map (·.name)).Nodup
  · have hlist : (Entries.ofList entries).toList = entries :=
      Entries.toList_ofList (hnames ▸ hdistinct)
    rw [Entries.names, hlist, conforms_zip_iff hsent hfield]
    exact and_congr (iff_of_true hnames hdistinct) Iff.rfl
  · refine iff_of_false (fun h => hdistinct ?_) fun h => hdistinct h.1
    rw [← h.1]
    exact Entries.distinct_ofList entries

end Record

/-- A value that is sent conforms to the wire type of its mapping exactly when the structs that it
is taken apart by have fields with distinct names. -/
theorem conforms_value_iff {m : Mapping} {v w : Value} (h : value m v = .ok w) :
    (WireType.ofMapping m).Conforms w ↔ m.DistinctFields v := by
  induction m generalizing v w with
  | scalar m kind hkind =>
    obtain ⟨storeType, type, _, facets, converter, comparer⟩ := m
    cases hkind
    refine iff_of_true ?_ (Mapping.distinctFields_scalar rfl)
    rw [value] at h
    split at h
    next => cases h
    next =>
      cases h
      exact .null
    next => exact conforms_scalarValue h
  | array m element shape materialized hkind ih =>
    obtain ⟨storeType, type, _, facets, converter, comparer⟩ := m
    cases hkind
    rw [value] at h
    split at h
    next => cases h
    next hprepare =>
      cases h
      exact iff_of_true .null (Mapping.distinctFields_null hprepare)
    next items hprepare =>
      obtain ⟨sent, hsent, rfl⟩ := Result.map_eq_ok.mp h
      rw [Mapping.distinctFields_array rfl hprepare, WireType.ofMapping, WireType.conforms_array]
      exact forall_mem_iff_of_forall₂ (forall₂_of_mapM hsent) fun _ _ => ih
    next => cases h
  | struct m fields hkind ih =>
    obtain ⟨storeType, type, _, facets, converter, comparer⟩ := m
    cases hkind
    rw [value] at h
    split at h
    next => cases h
    next hprepare =>
      cases h
      exact iff_of_true .null (Mapping.distinctFields_null hprepare)
    next r hprepare =>
      obtain ⟨out, hout, rfl⟩ := Result.map_eq_ok.mp h
      obtain ⟨entries, hsent, rfl⟩ := entries_of_fieldValues hout
      rw [Mapping.distinctFields_struct rfl hprepare, WireType.ofMapping]
      exact conforms_record_iff hsent fun f hf _ => conforms_fieldValue_iff fun _ _ => ih f hf
    next => cases h

section Examples

/-- A struct with fields whose names differ in case. -/
def caseVariants : Mapping := .struct [
  ⟨"a", Builtin.int64.mapping, .scalar .i64, none⟩,
  ⟨"A", .array Builtin.numeric.mapping ⟨.scalar .decimal, .list⟩ .list,
    .listOf (.scalar .decimal), none⟩] none .unknown

/-- A record for both fields. -/
def caseRecord : Value := .record (.ofList [("A", .list [.i64 2, .null]), ("a", .i64 1)])

/-- Fields whose names differ in case are both sent. -/
theorem conforms_value_iff_caseVariants :
    value caseVariants caseRecord =
        .ok (.record (.ofList [("a", .i64 1), ("A", .list [.decimal (.ofInt 2), .null])])) ∧
      caseVariants.DistinctFields caseRecord ∧ (WireType.ofMapping caseVariants).Conforms
        (.record (.ofList [("a", .i64 1), ("A", .list [.decimal (.ofInt 2), .null])])) := by
  have hdistinct : caseVariants.DistinctFields caseRecord := by
    rw [Mapping.distinctFields_struct rfl rfl]
    refine ⟨by decide, fun f hf u hu => ?_⟩
    simp only [List.mem_cons, List.not_mem_nil, or_false] at hf
    rcases hf with rfl | rfl
    · exact Mapping.distinctFields_scalar rfl
    · cases hu
      rw [Mapping.distinctFields_array rfl rfl]
      exact fun item _ => Mapping.distinctFields_scalar rfl
  exact ⟨rfl, hdistinct, (conforms_value_iff rfl).mpr hdistinct⟩

/-- One of two fields of the same name is lost. -/
theorem exists_value_not_conforms :
    ∃ m w, (default : Catalog).resolve none (some "STRUCT<a INT64, a NUMERIC>") = some m ∧
      WireType.ofMapping m = .struct [("a", .int64), ("a", .numeric)] ∧
      value m (.record (.ofList [("a", .i64 1)])) = .ok w ∧
      w = .record (.ofList [("a", .decimal (.ofInt 1))]) ∧ ¬(WireType.ofMapping m).Conforms w := by
  have hparse : StoreType.parse? "STRUCT<a INT64, a NUMERIC>".toList = some (.struct
      [⟨"a".toList, "INT64".toList⟩, ⟨"a".toList, "NUMERIC".toList⟩]) := by decide
  have hfirst : (default : Catalog).resolveKey
      (Key.ofField none ⟨"a".toList, "INT64".toList⟩) = some Builtin.int64.mapping :=
    Catalog.resolveKey_builtin .int64
  have hsecond : (default : Catalog).resolveKey
      (Key.ofField none ⟨"a".toList, "NUMERIC".toList⟩) = some Builtin.numeric.mapping :=
    Catalog.resolveKey_builtin .numeric
  have hm := Catalog.resolveKey_struct (c := default) none hparse <| by
    simp only [List.forall_mem_cons, List.not_mem_nil, false_implies, implies_true, and_true,
      hfirst, hsecond, Catalog.fieldMapping_eq hfirst, Catalog.fieldMapping_eq hsecond]
  simp only [Catalog.tokenFields, List.map_cons, List.map_nil, Catalog.fieldMapping_eq hfirst,
    Catalog.fieldMapping_eq hsecond] at hm
  refine ⟨_, _, hm, rfl, rfl, rfl, fun hconforms => ?_⟩
  have hnames := (WireType.conforms_struct.mp hconforms).1
  exact absurd hnames (by decide)

end Examples

end Wire

end TypedSql
