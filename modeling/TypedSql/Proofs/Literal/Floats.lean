import TypedSql.Proofs.Literal.Rerendering
import TypedSql.Proofs.Numeral.WidenedText
import TypedSql.Proofs.Wire.Tracking

/-!
# Literals of floats that are sent

A float is sent as a 64-bit float. What is sent has the literal of the value itself, except for a
finite 32-bit float whose text, shortest in its own width, is not read as the 64-bit float.
-/

namespace TypedSql.Literal

open Numeral Result

variable {m : Mapping} {v w : Value}

/-! ## Sending -/

/-- Floats are sent in 64 bits. -/
theorem scalarValue_float64_cases (h : Wire.scalarValue m .float64 v = .ok w) :
    (∃ x, v = .f64 x ∧ w = .f64 x) ∨ ∃ x, v = .f32 x ∧ w = .f64 x.widen := by
  cases v with
  | f64 x => exact .inl ⟨x, rfl, (Except.ok.inj h).symm⟩
  | f32 x => exact .inr ⟨x, rfl, (Except.ok.inj h).symm⟩
  | _ => cases h

/-- Null is sent, and floats by a mapping that converts nothing. -/
theorem value_float64_cases (hkind : m.kind = .scalar .float64) (h : Wire.value m v = .ok w) :
    v = .null ∧ w = .null ∨ m.converter = none ∧
      ((∃ x, v = .f64 x ∧ w = .f64 x) ∨ ∃ x, v = .f32 x ∧ w = .f64 x.widen) := by
  cases hprepare : m.prepare v with
  | error fault =>
    obtain ⟨_, hfault⟩ := Wire.value_of_prepare_error ⟨fault, hprepare⟩
    cases hfault.symm.trans h
  | ok stored =>
    rcases prepare_cases v with rfl | ⟨lengths, items, rfl⟩ | hstored
    · left
      obtain ⟨storeType, type, _, facets, converter, comparer⟩ := m
      cases hkind
      exact ⟨rfl, (Except.ok.inj h).symm⟩
    · cases hprepare
    · obtain ⟨u, hu, rfl⟩ := map_eq_ok.mp ((hstored m).symm.trans hprepare)
      rw [Wire.value_scalar hkind hprepare] at h
      cases hconverter : m.converter with
      | none =>
        rw [Mapping.toStored, hconverter] at hu
        obtain rfl := Except.ok.inj hu
        exact .inr ⟨rfl, scalarValue_float64_cases h⟩
      | some converter =>
        simp only [Mapping.toStored, hconverter] at hu
        split at hu
        next hnull =>
          cases v <;> cases hnull
          cases hprepare
        next =>
          rcases kind_of_toStored hu with ⟨n, rfl⟩ | ⟨s, rfl⟩ | ⟨d, rfl⟩ | ⟨j, rfl⟩ | ⟨items, rfl⟩
          all_goals cases h

/-! ## Rendering -/

/-- A finite float is written as its text. -/
theorem floatLiteral_of_isFinite {x : Binary64} (h : x.isFinite = true) :
    floatLiteral x = x.text := by
  rw [Binary64.isFinite] at h
  rw [floatLiteral]
  split at h
  next hparts => rw [hparts]
  next => cases h

/-- A 32-bit float has the literal of the 64-bit float it is widened to, just when its text is read
as that float if it has digits. -/
theorem scalarLiteral_widen_iff (x : Binary32) :
    scalarLiteral m .float64 (.f32 x) = scalarLiteral m .float64 (.f64 x.widen) ↔
      (x.isFinite = true → Binary64.ofText? x.text = some x.widen) := by
  simp only [scalarLiteral, Except.ok.injEq]
  split
  next h => rw [floatLiteral_of_isFinite (Binary32.isFinite_widen h), Binary32.text_widen_iff h,
      imp_iff_right h]
  next h => exact iff_of_true rfl fun hfinite => absurd hfinite h

/-- A 32-bit float is rendered as the 64-bit float that is sent for it, just when its text is read as
that float if it has digits. -/
theorem render_widen_iff (hkind : m.kind = .scalar .float64) (hconverter : m.converter = none)
    (x : Binary32) : render m (.f32 x) = render m (.f64 x.widen) ↔
      (x.isFinite = true → Binary64.ofText? x.text = some x.widen) := by
  rw [← scalarLiteral_widen_iff (m := m), render_unconverted hkind hconverter rfl,
    render_unconverted hkind hconverter rfl, Except.ok.injEq, String.ofList_inj]
  simp only [scalarLiteral, Except.ok.injEq]

/-- Null and floats are rendered, whether as they are or as they are sent, and alike but for a finite
32-bit float whose text is not read as the 64-bit float that is sent. Zeros of either sign, infinities
and NaN are rendered alike in both widths. -/
theorem render_sent_iff (hkind : m.kind = .scalar .float64) (h : Wire.value m v = .ok w) :
    Succeeds (render m v) ∧ Succeeds (render m w) ∧
      (render m v = render m w ↔
        ∀ x, v = .f32 x → x.isFinite = true → Binary64.ofText? x.text = some x.widen) ∧
      ∀ x, v = .f32 x → x.isFinite = false ∨ x.isZero = true → render m v = render m w := by
  rcases value_float64_cases hkind h with ⟨rfl, rfl⟩ | ⟨hconverter, ⟨x, rfl, rfl⟩ | ⟨x, rfl, rfl⟩⟩
  · have hnull : Succeeds (render m .null) :=
      ⟨_, map_eq_ok.mpr ⟨_, (literal_scalar hkind).mpr (.inl ⟨rfl, rfl⟩), rfl⟩⟩
    refine ⟨hnull, hnull, iff_of_true rfl ?_, fun _ _ _ => rfl⟩
    rintro x ⟨⟩
  · have hfloat : Succeeds (render m (.f64 x)) := ⟨_, render_unconverted hkind hconverter rfl⟩
    refine ⟨hfloat, hfloat, iff_of_true rfl ?_, fun _ _ _ => rfl⟩
    rintro y ⟨⟩
  · refine ⟨⟨_, render_unconverted hkind hconverter rfl⟩,
      ⟨_, render_unconverted hkind hconverter rfl⟩, ?_, ?_⟩
    · rw [render_widen_iff hkind hconverter]
      constructor
      · rintro hx y ⟨⟩
        exact hx
      · intro hx
        exact hx x rfl
    · rintro y ⟨⟩ hy
      rw [render_widen_iff hkind hconverter]
      intro hfinite
      rcases hy with hinfinite | hzero
      · cases hinfinite.symm.trans hfinite
      · exact Binary32.ofText?_text_of_isZero hzero

/-- A number of few digits is rendered alike in both widths. -/
theorem render_sent_iff_oneAndAHalf :
    Builtin.float64.mapping.kind = .scalar .float64 ∧
      Wire.value Builtin.float64.mapping (.f32 ⟨0x3fc00000⟩) = .ok (.f64 ⟨0x3ff8000000000000⟩) ∧
      render Builtin.float64.mapping (.f32 ⟨0x3fc00000⟩) =
        render Builtin.float64.mapping (.f64 ⟨0x3ff8000000000000⟩) := by
  have hsent : Wire.value Builtin.float64.mapping (.f32 ⟨0x3fc00000⟩) =
      .ok (.f64 ⟨0x3ff8000000000000⟩) := by rfl
  obtain ⟨-, -, hiff, -⟩ := render_sent_iff (m := Builtin.float64.mapping) rfl hsent
  refine ⟨rfl, hsent, hiff.mpr ?_⟩
  rintro x ⟨⟩ -
  rfl

/-- A tenth in 32 bits is rendered with its one digit, and in 64 bits with all the digits of the
number that it is. -/
theorem render_sent_ne_tenth :
    (default : Catalog).resolveType (.scalar .f32) =
        some (Builtin.float64.mapping.withType (.scalar .f32)) ∧
      (Builtin.float64.mapping.withType (.scalar .f32)).kind = .scalar .float64 ∧
      Wire.value (Builtin.float64.mapping.withType (.scalar .f32)) (.f32 ⟨0x3dcccccd⟩) =
        .ok (.f64 ⟨0x3fb99999a0000000⟩) ∧
      render (Builtin.float64.mapping.withType (.scalar .f32)) (.f32 ⟨0x3dcccccd⟩) = .ok "0.1" ∧
      render (Builtin.float64.mapping.withType (.scalar .f32)) (.f64 ⟨0x3fb99999a0000000⟩) =
        .ok "0.10000000149011612" ∧
      render (Builtin.float64.mapping.withType (.scalar .f32)) (.f32 ⟨0x3dcccccd⟩) ≠
        render (Builtin.float64.mapping.withType (.scalar .f32)) (.f64 ⟨0x3fb99999a0000000⟩) := by
  have hnarrow : render (Builtin.float64.mapping.withType (.scalar .f32)) (.f32 ⟨0x3dcccccd⟩) =
      .ok "0.1" := by rfl
  have hwide : render (Builtin.float64.mapping.withType (.scalar .f32))
      (.f64 ⟨0x3fb99999a0000000⟩) = .ok "0.10000000149011612" := by rfl
  refine ⟨?_, rfl, by rfl, hnarrow, hwide, ?_⟩
  · rw [Catalog.resolveType, Catalog.resolve, Option.map_none, Key.of,
      Catalog.resolveKey_scalarType]
    rfl
  · rw [hnarrow, hwide]
    simp

end TypedSql.Literal
