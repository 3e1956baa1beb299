import Mathlib.Logic.Basic
import TypedSql.Catalog.Resolve
import TypedSql.Proofs.Mapping.Parts
import TypedSql.Wire.Basic

/-!
# Literals and parameters

Which values can be written as literals and which can be sent as parameters. Both walk a value part
by part along its mapping and differ only in the scalars that they take: an integer can be written
as a float literal but not sent as a float parameter.
-/

namespace TypedSql

open Result Mapping

/-! ## Literals -/

namespace Literal

/-- Items are written when each of them is. -/
theorem succeeds_eachAt {α β : Type} {f : α → Result β} {items : List α} (index : Nat) :
    Succeeds (eachAt f index items) ↔ ∀ item ∈ items, Succeeds (f item) := by
  induction items generalizing index with
  | nil => exact iff_of_true (succeeds_ok []) fun _ h => absurd h List.not_mem_nil
  | cons first rest ih =>
    rw [List.forall_mem_cons, ← ih (index + 1), eachAt]
    cases f first with
    | error fault => simp
    | ok b => cases eachAt f (index + 1) rest <;> simp

/-- The fields of a record are written when each that has a value is. -/
theorem succeeds_fieldLiterals {fields : List Field} {r : Record} :
    Succeeds (fieldLiterals fields r) ↔
      ∀ f ∈ fields, ∀ v, f.extract r = some v → Succeeds (literal f.mapping v) := by
  induction fields with
  | nil => exact iff_of_true (succeeds_ok []) fun _ h => absurd h List.not_mem_nil
  | cons first rest ih =>
    obtain ⟨name, mapping, type, member⟩ := first
    rw [List.forall_mem_cons, ← ih, fieldLiterals]
    cases hv : Field.extract ⟨name, mapping, type, member⟩ r with
    | none => cases fieldLiterals rest r <;> simp
    | some v =>
      cases hl : literal mapping v with
      | error fault => simp [hl]
      | ok text => cases fieldLiterals rest r <;> simp [hl]

/-- A value is written as a literal when every scalar it comes down to is. -/
theorem succeeds_literal {m : Mapping} {v : Value} :
    Succeeds (literal m v) ↔ Accepts (fun m kind w => Succeeds (scalarLiteral m kind w)) m v := by
  induction m generalizing v with
  | scalar m kind hkind =>
    obtain ⟨storeType, type, _, facets, converter, comparer⟩ := m
    cases hkind
    rw [accepts_scalar rfl, literal]
    rcases prepare _ v with fault | _ | w <;> simp
  | array m element shape materialized hkind ih =>
    obtain ⟨storeType, type, _, facets, converter, comparer⟩ := m
    cases hkind
    rw [accepts_array rfl, literal]
    rcases prepare _ v with fault | _ | w
    · simp
    · simp
    · cases w <;> simp [succeeds_eachAt, ih]
  | struct m fields hkind ih =>
    obtain ⟨storeType, type, _, facets, converter, comparer⟩ := m
    cases hkind
    have hparts (r : Record) :
        (∀ f ∈ fields, ∀ w, Field.extract f r = some w → Succeeds (literal f.mapping w)) ↔
          ∀ f ∈ fields, ∀ w, Field.extract f r = some w →
            Accepts (fun m kind w => Succeeds (scalarLiteral m kind w)) f.mapping w :=
      forall₂_congr fun f hf => forall₂_congr fun w _ => ih f hf
    rw [accepts_struct rfl, literal]
    rcases prepare _ v with fault | _ | w
    · simp
    · simp
    · cases w <;> simp [succeeds_fieldLiterals, hparts]

end Literal

/-! ## Parameters -/

namespace Wire

/-- The fields of a record are sent when each that has a value is. -/
theorem succeeds_fieldValues {fields : List Field} {r done : Record} :
    Succeeds (fieldValues fields r done) ↔
      ∀ f ∈ fields, ∀ v, f.extract r = some v → Succeeds (value f.mapping v) := by
  induction fields generalizing done with
  | nil => exact iff_of_true (succeeds_ok done) fun _ h => absurd h List.not_mem_nil
  | cons first rest ih =>
    obtain ⟨name, mapping, type, member⟩ := first
    rw [List.forall_mem_cons, fieldValues]
    cases hv : Field.extract ⟨name, mapping, type, member⟩ r with
    | none => simp [ih]
    | some v => cases hw : value mapping v <;> simp [ih, hw]

/-- A value is sent as a parameter when every scalar it comes down to is. -/
theorem succeeds_value {m : Mapping} {v : Value} :
    Succeeds (value m v) ↔ Accepts (fun m kind w => Succeeds (scalarValue m kind w)) m v := by
  induction m generalizing v with
  | scalar m kind hkind =>
    obtain ⟨storeType, type, _, facets, converter, comparer⟩ := m
    cases hkind
    rw [accepts_scalar rfl, value]
    rcases prepare _ v with fault | _ | w <;> simp
  | array m element shape materialized hkind ih =>
    obtain ⟨storeType, type, _, facets, converter, comparer⟩ := m
    cases hkind
    rw [accepts_array rfl, value]
    rcases prepare _ v with fault | _ | w
    · simp
    · simp
    · cases w <;> simp [succeeds_mapM, ih]
  | struct m fields hkind ih =>
    obtain ⟨storeType, type, _, facets, converter, comparer⟩ := m
    cases hkind
    have hparts (r : Record) :
        (∀ f ∈ fields, ∀ w, Field.extract f r = some w → Succeeds (value f.mapping w)) ↔
          ∀ f ∈ fields, ∀ w, Field.extract f r = some w →
            Accepts (fun m kind w => Succeeds (scalarValue m kind w)) f.mapping w :=
      forall₂_congr fun f hf => forall₂_congr fun w _ => ih f hf
    rw [accepts_struct rfl, value]
    rcases prepare _ v with fault | _ | w
    · simp
    · simp
    · cases w <;> simp [succeeds_fieldValues, hparts]

end Wire

/-! ## Scalars -/

/-- The stored values that a kind of scalar is made for. -/
def ScalarKind.Takes : ScalarKind → Value → Prop
  | .int64, .enum _ => True
  | .int64, v => v.toInt64?.isSome
  | .decimal, .u64 _ => True
  | .decimal, .decimal _ => True
  | .decimal, .bigDecimal _ => True
  | .decimal, v => v.toInt64?.isSome
  | .bytes, .list items => ∀ item ∈ items, ∃ b, item = .u8 b
  | .bool, v => v.scalarType? = some .bool
  | .float64, v => v.scalarType? ∈ [some .f32, some .f64]
  | .string, v => v.scalarType? ∈ [some .string, some .char, some .uuid]
  | .bytes, v => v.scalarType? = some .bytes
  | .date, v => v.scalarType? = some .date
  | .time, v => v.scalarType? = some .time
  | .dateTime, v => v.scalarType? = some .dateTime
  | .timestamp, v => v.scalarType? ∈ [some .timestamp, some .zoned]
  | .json, v => v.scalarType? = some .json
  | .geography, v => v.scalarType? = some .geography

/-- A byte is sent from an 8-bit unsigned integer alone. -/
theorem Wire.succeeds_byteOf {v : Value} : Succeeds (Wire.byteOf v) ↔ ∃ b, v = .u8 b := by
  cases v <;> simp [Wire.byteOf]

/-- A byte is written from an 8-bit unsigned integer alone. -/
theorem Literal.succeeds_byteOf {m : Mapping} {v : Value} :
    Succeeds (Literal.byteOf m v) ↔ ∃ b, v = .u8 b := by
  cases v <;> simp [Literal.byteOf]

/-- The values that have digits as a decimal. -/
theorem Literal.decimalDigits?_isSome {v : Value} :
    (decimalDigits? v).isSome ↔ ScalarKind.decimal.Takes v := by
  cases v <;> simp [decimalDigits?, ScalarKind.Takes, Value.toInt64?]

/-- The stored values of a scalar kind are those that are sent. -/
theorem Wire.succeeds_scalarValue {m : Mapping} {kind : ScalarKind} {v : Value} :
    Succeeds (scalarValue m kind v) ↔ kind.Takes v := by
  cases kind with
  | int64 =>
    cases v with
    | u64 n =>
      simp only [scalarValue, ScalarKind.Takes]
      cases Value.toInt64? (.u64 n) <;> simp
    | _ => simp [scalarValue, ScalarKind.Takes, Value.toInt64?]
  | decimal => cases v <;> simp [scalarValue, ScalarKind.Takes, Value.toInt64?]
  | bytes =>
    cases v <;>
      simp [scalarValue, ScalarKind.Takes, Value.scalarType?, succeeds_mapM, succeeds_byteOf]
  | _ => cases v <;> simp [scalarValue, ScalarKind.Takes, Value.scalarType?]

/-- The stored values of a scalar kind can be written, and integers can be written as floats. -/
theorem Literal.succeeds_scalarLiteral {m : Mapping} {kind : ScalarKind} {v : Value} :
    Succeeds (scalarLiteral m kind v) ↔ kind.Takes v ∨ kind = .float64 ∧ v.toInt64?.isSome := by
  cases kind with
  | int64 =>
    cases v with
    | u64 n =>
      simp only [scalarLiteral, ScalarKind.Takes]
      cases Value.toInt64? (.u64 n) <;> simp
    | _ => simp [scalarLiteral, ScalarKind.Takes, Value.toInt64?]
  | float64 =>
    cases v with
    | u64 n =>
      simp only [scalarLiteral, ScalarKind.Takes]
      cases Value.toInt64? (.u64 n) <;> simp [Value.scalarType?]
    | _ => simp [scalarLiteral, ScalarKind.Takes, Value.toInt64?, Value.scalarType?]
  | decimal =>
    rw [← decimalDigits?_isSome, scalarLiteral]
    cases decimalDigits? v <;> simp
  | bytes =>
    cases v <;>
      simp [scalarLiteral, ScalarKind.Takes, Value.scalarType?, succeeds_mapM, succeeds_byteOf]
  | _ => cases v <;> simp [scalarLiteral, ScalarKind.Takes, Value.scalarType?]

/-! ## Agreement -/

/-- No stored integer stands in the place of a float. -/
def ScalarKind.TakesNoInteger (kind : ScalarKind) (v : Value) : Prop :=
  kind = .float64 → v.toInt64? = none

/-- A kind of floats is not made for integers. -/
theorem ScalarKind.Takes.noInteger {kind : ScalarKind} {v : Value} (h : kind.Takes v) :
    kind.TakesNoInteger v := by
  rintro rfl
  cases v <;> simp [Takes, Value.scalarType?] at h <;> rfl

/-- A stored scalar is sent when it is written and no integer for a float. -/
theorem succeeds_scalarValue_iff {m : Mapping} {kind : ScalarKind} {v : Value} :
    Succeeds (Wire.scalarValue m kind v) ↔
      Succeeds (Literal.scalarLiteral m kind v) ∧ kind.TakesNoInteger v := by
  rw [Wire.succeeds_scalarValue, Literal.succeeds_scalarLiteral]
  constructor
  · intro h
    exact ⟨Or.inl h, h.noInteger⟩
  · rintro ⟨h | ⟨hkind, hinteger⟩, hno⟩
    · exact h
    · rw [hno hkind] at hinteger
      exact absurd hinteger Bool.false_ne_true

/-- What can be sent as a parameter can be written as a literal. -/
theorem succeeds_literal_of_value {m : Mapping} {v : Value} (h : Succeeds (Wire.value m v)) :
    Succeeds (Literal.literal m v) := by
  rw [Wire.succeeds_value, accepts_congr fun _ _ _ => succeeds_scalarValue_iff, accepts_and] at h
  exact Literal.succeeds_literal.mpr h.1

/-- A value can be sent as a parameter exactly when it can be written as a literal and no integer
stands in the place of a float. -/
theorem succeeds_value_iff_render (m : Mapping) (v : Value) :
    Succeeds (Wire.value m v) ↔
      Succeeds (Literal.render m v) ∧ Accepts (fun _ kind w => kind.TakesNoInteger w) m v := by
  rw [Literal.render, succeeds_map, Literal.succeeds_literal, Wire.succeeds_value, ← accepts_and]
  exact accepts_congr fun _ _ _ => succeeds_scalarValue_iff

/-- An integer can be written at `FLOAT64` and cannot be sent there. -/
theorem exists_render_not_value :
    ∃ m, (default : Catalog).resolve none (some "FLOAT64") = some m ∧
      Literal.render m (.i64 1) = .ok "1.0" ∧
        Wire.value m (.i64 1) = .error (.conversion (.i64 1) "FLOAT64") := by
  refine ⟨Builtin.float64.mapping, ?_, rfl, rfl⟩
  rw [Catalog.resolve, Catalog.resolveKey]
  rfl

end TypedSql
