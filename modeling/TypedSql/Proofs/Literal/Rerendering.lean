import TypedSql.Proofs.Catalog.Alone

/-!
# Scalars rendered by their store type alone

A scalar that is converted before it is written has the same literal when the store type is looked
up alone, where nothing is converted: a store type writes the host values that are stored under it
as they would be converted. The one exception are enumerations over 64-bit unsigned integers, whose
store type does not take their values.
-/

namespace TypedSql

open Numeral Result

/-! ## Digits -/

/-- A natural number has the digits of the integer. -/
theorem Numeral.signed_natCast (n : Nat) : signed n = decimal n := by
  rw [signed, if_neg (by omega), Int.natAbs_natCast]

/-- A whole decimal is written as the natural number. -/
theorem Numeral.Scaled.text_ofInt (n : Nat) : (Scaled.ofInt n).text = decimal n := by
  have hnonneg : ¬(n : Int) < 0 := by omega
  simp [Scaled.text, Scaled.ofInt, hnonneg]

namespace Literal

variable {m m₀ : Mapping} {kind : ScalarKind} {v w : Value} {text : List Char}

/-- An unsigned number that fits is the same signed one. -/
theorem toInt_toInt64 {n : UInt64} (h : n.toNat ≤ Int64.maxValue.toInt) :
    n.toInt64.toInt = n.toNat := by
  rw [Int64.toInt_maxValue] at h
  have hlt : n.toNat < 2 ^ 63 := by omega
  rw [← Int64.toInt_ofNat_of_lt hlt, ← UInt64.toInt64_ofNat', UInt64.ofNat_toNat]

/-- An integer has the same digits as a decimal, whatever its width. -/
theorem decimalDigits?_of_toInt64? {n : Int64} (h : v.toInt64? = some n) :
    decimalDigits? v = some (signed n.toInt) := by
  cases v with
  | u64 k =>
    obtain ⟨hle, hn⟩ := Option.ite_none_right_eq_some.mp h
    cases hn
    rw [toInt_toInt64 hle, signed_natCast]
    rfl
  | decimal | bigDecimal => cases h
  | _ => simp [decimalDigits?, h]

/-! ## Literals of stored values -/

/-- What is written for a scalar depends on the mapping through its store type alone. -/
theorem scalarLiteral_congr (h : m₀.storeType = m.storeType) :
    scalarLiteral m₀ kind v = scalarLiteral m kind v := by
  have hmismatch (w : Value) : m₀.mismatch w = m.mismatch w := by
    simp only [Mapping.mismatch, h]
  have hbyte : byteOf m₀ = byteOf m := by
    funext w
    simp only [byteOf, hmismatch]
  have hbig : m₀.isBigNumeric = m.isBigNumeric := by
    simp only [Mapping.isBigNumeric, h]
  simp only [scalarLiteral, hmismatch, hbyte, hbig]

/-- Null and rectangular arrays apart, values are prepared by the converter. -/
theorem prepare_cases (v : Value) : v = .null ∨ (∃ lengths items, v = .multi lengths items) ∨
    ∀ m : Mapping, m.prepare v = (m.toStored v).map some := by
  cases v with
  | null => exact .inl rfl
  | multi lengths items => exact .inr (.inl ⟨lengths, items, rfl⟩)
  | _ => exact .inr (.inr fun _ => rfl)

/-- A scalar is written in stored form, and null by its keyword. -/
theorem literal_scalar (hkind : m.kind = .scalar kind) : literal m v = .ok text ↔
    m.prepare v = .ok none ∧ "NULL".toList = text ∨
      ∃ w, m.prepare v = .ok (some w) ∧ scalarLiteral m kind w = .ok text := by
  obtain ⟨storeType, type, _, facets, converter, comparer⟩ := m
  subst hkind
  rw [literal]
  cases hprepare : Mapping.prepare _ v with
  | error fault => simp
  | ok stored => cases stored <;> simp

/-- A value that has a literal of its own is prepared by the converter. -/
theorem prepare_of_scalarLiteral (hv : scalarLiteral m kind v = .ok text) :
    v.isNull = false ∧ m.prepare v = (m.toStored v).map some := by
  cases v with
  | null | multi => cases kind <;> cases hv
  | _ => exact ⟨rfl, rfl⟩

/-- A mapping without a converter writes the literal of the value itself. -/
theorem render_unconverted (hkind : m.kind = .scalar kind) (hconverter : m.converter = none)
    (hv : scalarLiteral m kind v = .ok text) : render m v = .ok (String.ofList text) := by
  have hprepare : m.prepare v = .ok (some v) := by
    rw [(prepare_of_scalarLiteral hv).2, Mapping.toStored, hconverter]
    rfl
  exact map_eq_ok.mpr ⟨text, (literal_scalar hkind).mpr (.inr ⟨v, hprepare, hv⟩), rfl⟩

/-- A mapping without a converter writes what another one of its kind and store type writes, when
the value has the literal of what is stored for it. -/
theorem literal_unconverted (hkind : m.kind = .scalar kind) (hkind₀ : m₀.kind = .scalar kind)
    (hstore : m₀.storeType = m.storeType) (hconverter : m₀.converter = none)
    (hstored : ∀ w, m.toStored v = .ok w → scalarLiteral m kind v = scalarLiteral m kind w)
    (h : literal m v = .ok text) : literal m₀ v = .ok text := by
  rw [literal_scalar hkind] at h
  rw [literal_scalar hkind₀]
  rcases prepare_cases v with rfl | ⟨lengths, items, rfl⟩ | hprepare
  · exact .inl ⟨rfl, h.elim And.right fun ⟨_, hw, _⟩ => nomatch hw⟩
  · rcases h with ⟨h, -⟩ | ⟨w, h, -⟩ <;> cases h
  · rw [hprepare] at h ⊢
    rcases h with ⟨h, -⟩ | ⟨w, hw, htext⟩
    · obtain ⟨_, -, hnone⟩ := map_eq_ok.mp h
      cases hnone
    · obtain ⟨_, hw, hsome⟩ := map_eq_ok.mp hw
      cases hsome
      refine .inr ⟨v, by rw [Mapping.toStored, hconverter]; rfl, ?_⟩
      rw [scalarLiteral_congr hstore, hstored w hw, htext]

/-! ## Converted scalars -/

/-- The kind as which a converter stores scalars that no enumeration has. -/
def scalarKind? : Converter → Option ScalarKind
  | .uuidToText | .charToText => some .string
  | .naturalToDecimal => some .decimal
  | .enumToNumber | .toJson | .materialize .. => none

/-- A UUID, a character and a natural number are written as what is stored for them. -/
theorem scalarLiteral_toStored {converter : Converter} (hkind : scalarKind? converter = some kind)
    (hw : converter.toStored v = .ok w) : scalarLiteral m kind v = scalarLiteral m kind w := by
  cases converter with
  | uuidToText | charToText =>
    cases hkind
    cases v <;> cases hw
    · rfl
    · simp [scalarLiteral]
  | naturalToDecimal =>
    cases hkind
    cases v <;> cases hw
    simp [scalarLiteral, decimalDigits?, Scaled.text_ofInt]
  | _ => cases hkind

/-- A converter stores all values but null. -/
theorem toStored_cases {converter : Converter} (h : m.converter = some converter)
    (hw : m.toStored v = .ok w) : v = w ∨ converter.toStored v = .ok w := by
  simp only [Mapping.toStored, h] at hw
  split at hw
  next => exact .inl (Except.ok.inj hw)
  next => exact .inr hw

/-- What a converter stores is an integer, a text, a decimal, a document or a list. -/
theorem kind_of_toStored {converter : Converter} (h : converter.toStored v = .ok w) :
    (∃ n, w = .i64 n) ∨ (∃ s, w = .string s) ∨ (∃ d, w = .decimal d) ∨ (∃ j, w = .json j) ∨
      ∃ items, w = .list items := by
  unfold Converter.toStored at h
  split at h
  case h_9 =>
    obtain ⟨j, -, rfl⟩ := map_eq_ok.mp h
    simp
  case h_2 =>
    split at h
    · cases h
      simp
    · cases h
  all_goals
    cases h <;> simp

/-- An integer is stored for a value of an enumeration, and for any integer that fits. -/
theorem enumToNumber_cases (hw : Converter.enumToNumber.toStored v = .ok w) :
    (∃ d, v = .enum d ∧ w = .i64 d) ∨ ∃ n, v.toInt64? = some n ∧ w = .i64 n := by
  cases v with
  | enum d =>
    cases hw
    exact .inl ⟨d, rfl, rfl⟩
  | _ =>
    rw [Converter.toStored] at hw
    · split at hw
      next n hn =>
        cases hw
        exact .inr ⟨n, hn, rfl⟩
      next => cases hw
    · simp

/-- An integer has the literal of the 64-bit integer. -/
theorem scalarLiteral_int64 {n : Int64} (h : v.toInt64? = some n) :
    scalarLiteral m .int64 v = .ok (signed n.toInt) := by
  cases v with
  | enum d => cases h
  | _ => simp [scalarLiteral, h]

/-- An integer is written as a decimal with its digits. -/
theorem scalarLiteral_decimal {n : Int64} (h : v.toInt64? = some n) :
    scalarLiteral m .decimal v =
      .ok (keyworded (if m.isBigNumeric then "BIGNUMERIC" else "NUMERIC") (signed n.toInt)) := by
  simp only [scalarLiteral, decimalDigits?_of_toInt64? h]

/-- An integer is written for a value of an enumeration as for its number. -/
theorem scalarLiteral_enumToNumber (hw : Converter.enumToNumber.toStored v = .ok w) :
    scalarLiteral m .int64 v = scalarLiteral m .int64 w := by
  rcases enumToNumber_cases hw with ⟨d, rfl, rfl⟩ | ⟨n, hn, rfl⟩
  · rfl
  · rw [scalarLiteral_int64 hn]
    rfl

/-- A decimal is written for an integer as for the 64-bit one, but for no value of an
enumeration. -/
theorem scalarLiteral_enumToNumber_decimal (hv : ∀ d, v ≠ .enum d)
    (hw : Converter.enumToNumber.toStored v = .ok w) :
    scalarLiteral m .decimal v = scalarLiteral m .decimal w := by
  rcases enumToNumber_cases hw with ⟨d, rfl, -⟩ | ⟨n, hn, rfl⟩
  · exact absurd rfl (hv d)
  · rw [scalarLiteral_decimal hn]
    rfl

end Literal

namespace HostType

/-- Types that are stored as scalars by default, optional or not: all but records and sequences,
among which arrays of bytes count as scalars. -/
def IsScalar (t : HostType) : Prop :=
  t.unwrapOption.isRecord = false ∧
    (t.unwrapOption.isList = true → t.unwrapOption.isByteSequence = true)

/-- Enumerations over 64-bit unsigned integers, optional or not. -/
def IsWideEnum (t : HostType) : Prop :=
  ∃ e, t.unwrapOption = .enum e ∧ e.underlying.unwrapOption = .scalar .u64

/-- The type without options is no option. -/
theorem unwrapOption_ne_option (t inner : HostType) : t.unwrapOption ≠ .option inner := by
  induction t using induct with
  | option _ ih => exact ih
  | _ => exact HostType.noConfusion

end HostType

namespace Catalog

variable {c : Catalog} {t : HostType} {m : Mapping}

/-- The mapping of an optional type stores values as that of the type itself does. -/
theorem exists_unwrapped (h : c.resolveKey ⟨some t, none⟩ = some m) :
    ∃ m', c.resolveKey ⟨some t.unwrapOption, none⟩ = some m' ∧
      m.kind = m'.kind ∧ m.storeType = m'.storeType ∧ m.converter = m'.converter := by
  induction t using HostType.induct generalizing m with
  | option inner ih =>
    rw [resolveKey_option] at h
    obtain ⟨found, hfound, rfl⟩ := Option.map_eq_some_iff.mp h
    obtain ⟨m', hm', hkind, hstore, hconverter⟩ := ih hfound
    exact ⟨m', hm', hkind, (storeType_nullable (resolves_of_resolveKey hfound)).trans hstore,
      hconverter⟩
  | _ => exact ⟨m, h, rfl, rfl, rfl⟩

/-- Integers are stored as decimals when they are unsigned ones of 64 bits, and otherwise as
integers. -/
theorem kind_of_isInteger {store : Option (List Char)} (h : Resolves c ⟨some t, store⟩ m)
    (hinteger : m.type.isInteger = true) :
    m.kind = .scalar .decimal ∧ t.unwrapOption = .scalar .u64 ∨
      m.kind = .scalar .int64 ∧ t.unwrapOption ≠ .scalar .u64 := by
  have hkind := storedInKind_of_resolves h hinteger
  rw [type_of_resolves h rfl] at hkind
  split at hkind
  next hwide => exact .inl ⟨hkind, hwide⟩
  next hnarrow => exact .inr ⟨hkind, hnarrow⟩

/-- A value of a scalar type has the literal of what is stored for it. -/
theorem scalarLiteral_ofScalar {s : ScalarType} {kind : ScalarKind} {v w : Value}
    (hkind : (Builtin.ofScalar s).kind = .scalar kind)
    (hw : (Builtin.ofScalar s).toStored v = .ok w) :
    Literal.scalarLiteral m kind v = Literal.scalarLiteral m kind w := by
  cases hconverter : (Builtin.ofScalar s).converter with
  | none =>
    rw [Mapping.toStored, hconverter] at hw
    cases hw
    rfl
  | some converter =>
    have hstored : Literal.scalarKind? converter = some kind := by
      cases s <;> cases hconverter <;> cases hkind <;> rfl
    rcases Literal.toStored_cases hconverter hw with rfl | hw
    · rfl
    · exact Literal.scalarLiteral_toStored hstored hw

/-- A value of an enumeration has the literal of what is stored for it, unless it is stored as a
decimal. -/
theorem scalarLiteral_of_enumMapping? {e : EnumType} {u : Mapping}
    (hu : c.resolveKey ⟨some e.underlying, none⟩ = some u)
    (hm : enumMapping? (.enum e) (some u) = some m) :
    ∃ kind, m.kind = .scalar kind ∧ (e.underlying.unwrapOption = .scalar .u64 → kind = .decimal) ∧
      ∀ v w, (e.underlying.unwrapOption = .scalar .u64 → ∀ d, v ≠ .enum d) →
        m.toStored v = .ok w →
          Literal.scalarLiteral m kind v = Literal.scalarLiteral m kind w := by
  obtain ⟨hinteger, rfl⟩ := enumMapping?_some hm
  rcases kind_of_isInteger (resolves_of_resolveKey hu) hinteger with
    ⟨hdecimal, hwide⟩ | ⟨hint64, hnarrow⟩
  · refine ⟨.decimal, hdecimal, fun _ => rfl, fun v w hv hw => ?_⟩
    rcases Literal.toStored_cases rfl hw with rfl | hw
    · rfl
    · exact Literal.scalarLiteral_enumToNumber_decimal (hv hwide) hw
  · refine ⟨.int64, hint64, fun hwide => absurd hwide hnarrow, fun v w _ hw => ?_⟩
    rcases Literal.toStored_cases rfl hw with rfl | hw
    · rfl
    · exact Literal.scalarLiteral_enumToNumber hw

/-- A value of a scalar type has the literal of what is stored for it, unless it is one of an
enumeration over 64-bit unsigned integers, which is stored as a decimal. -/
theorem scalarLiteral_of_resolveKey (h : c.resolveKey ⟨some t, none⟩ = some m) (ht : t.IsScalar) :
    ∃ kind, m.kind = .scalar kind ∧ (t.IsWideEnum → kind = .decimal) ∧
      ∀ v w, ¬(t.IsWideEnum ∧ ∃ d, v = .enum d) → m.toStored v = .ok w →
        Literal.scalarLiteral m kind v = Literal.scalarLiteral m kind w := by
  obtain ⟨m', hm', hkind, hstore, hconverter⟩ := exists_unwrapped h
  have hstored (v : Value) : m.toStored v = m'.toStored v := by
    simp only [Mapping.toStored, hconverter]
  simp only [hkind, hstored, Literal.scalarLiteral_congr hstore, HostType.IsWideEnum]
  obtain ⟨hrecord, hlist⟩ := ht
  cases htype : t.unwrapOption with
  | scalar s =>
    rw [htype, resolveKey_scalarType] at hm'
    cases hm'
    obtain ⟨kind, hs⟩ : ∃ kind, (Builtin.ofScalar s).kind = .scalar kind := by
      cases s <;> exact ⟨_, rfl⟩
    refine ⟨kind, hs, ?_, fun v w _ hw => scalarLiteral_ofScalar hs hw⟩
    rintro ⟨_, henum, -⟩
    cases henum
  | enum e =>
    rw [htype, resolveKey_enumType] at hm'
    cases hu : c.resolveKey ⟨some e.underlying, none⟩ with
    | none => simp [hu, enumMapping?] at hm'
    | some u =>
      obtain ⟨kind, hm, hwide, hliteral⟩ := scalarLiteral_of_enumMapping? hu (hu ▸ hm')
      refine ⟨kind, hm, ?_, fun v w hne => hliteral v w fun h d hd => ?_⟩
      · rintro ⟨_, henum, h⟩
        cases henum
        exact hwide h
      · exact hne ⟨⟨e, rfl, h⟩, d, hd⟩
  | list l =>
    rw [htype] at hlist hm'
    obtain rfl : l = ⟨.scalar .u8, .array⟩ := by
      simpa [HostType.isByteSequence, HostType.arrayOf] using hlist rfl
    rw [resolveKey_byteArray] at hm'
    cases hm'
    refine ⟨.bytes, rfl, ?_, fun v w _ hw => ?_⟩
    · rintro ⟨_, henum, -⟩
      cases henum
    · cases hw
      rfl
  | record r =>
    rw [htype] at hrecord
    cases hrecord
  | option inner => exact absurd htype (t.unwrapOption_ne_option inner)
  | unknown => simp [htype, resolveKey_unknown] at hm'

/-- Rendered by the mapping of its store type alone, a scalar has the same literal in all cases but
one: a value of an enumeration over 64-bit unsigned integers. -/
theorem render_resolveStoreType_iff (h : c.resolveType t = some m) (ht : t.IsScalar) {v : Value}
    {text : String} (hv : Literal.render m v = .ok text) :
    ∃ m₂, c.resolveStoreType m.storeType = some m₂ ∧
      (Literal.render m₂ v = .ok text ↔ ¬(t.IsWideEnum ∧ ∃ d, v = .enum d)) := by
  obtain ⟨kind, hkind, hwide, hstored⟩ := scalarLiteral_of_resolveKey h ht
  have hscalar : ¬m.kind.isComposite = true := by simp [hkind, KindOf.isComposite]
  obtain ⟨b, hb⟩ := (readsBack_of_resolveKey h).bare.resolve_left hscalar
  have hb₂ : b.mapping.kind = .scalar kind := hb.kind ▸ hkind
  have hconverter : b.mapping.converter = none := by cases b <;> rfl
  obtain ⟨text, hliteral, rfl⟩ := map_eq_ok.mp hv
  refine ⟨b.mapping, ?_, fun htext henum => ?_, fun hne => ?_⟩
  · rw [resolveStoreType, resolve, hb.storeType]
    exact resolveKey_builtin b
  · obtain ⟨henum, d, rfl⟩ := henum
    obtain rfl := hwide henum
    obtain ⟨_, htext, -⟩ := map_eq_ok.mp htext
    have hprepare : b.mapping.prepare (.enum d) = .ok (some (.enum d)) := by
      simp only [Mapping.prepare, Mapping.toStored, hconverter]
      rfl
    rw [Literal.literal_scalar hb₂, hprepare] at htext
    rcases htext with ⟨hnone, -⟩ | ⟨_, hsome, htext⟩
    · cases hnone
    · cases hsome
      cases htext
  · exact map_eq_ok.mpr ⟨text, Literal.literal_unconverted hkind hb₂ hb.storeType.symm hconverter
      (fun w hw => hstored v w hne hw) hliteral, rfl⟩

section Examples

/-- An enumeration over small integers. -/
def trend : EnumType := ⟨"Trend", .scalar .i16, [⟨"Down", -1⟩, ⟨"Up", 1⟩]⟩

/-- An enumeration over 64-bit unsigned integers. -/
def access : EnumType := ⟨"Access", .scalar .u64, [⟨"Read", 1⟩, ⟨"All", 3⟩]⟩

/-- A value of an optional enumeration is an integer under the store type alone as well. -/
theorem render_resolveStoreType_iff_trend :
    ∃ m m₂, (default : Catalog).resolveType (.option (.enum trend)) = some m ∧
      (HostType.option (.enum trend)).IsScalar ∧
      Literal.render m (.enum (-1)) = .ok "-1" ∧
      (default : Catalog).resolveStoreType m.storeType = some m₂ ∧
      Literal.render m₂ (.enum (-1)) = .ok "-1" := by
  have hm : (default : Catalog).resolveType (.option (.enum trend)) =
      some (nullable ((Builtin.ofScalar .i16).withType (.enum trend)
        |>.withConverter .enumToNumber)) := by
    rw [resolveType, resolve, Option.map_none, Key.of, resolveKey_option, resolveKey_enumType,
      trend, resolveKey_scalarType]
    rfl
  have hscalar : (HostType.option (.enum trend)).IsScalar := ⟨rfl, fun h => by cases h⟩
  have hrender : Literal.render (nullable ((Builtin.ofScalar .i16).withType (.enum trend)
      |>.withConverter .enumToNumber)) (.enum (-1)) = .ok "-1" := by rfl
  have hnarrow : ¬(HostType.option (.enum trend)).IsWideEnum := by
    rintro ⟨e, he, hwide⟩
    cases he
    cases hwide
  obtain ⟨m₂, hm₂, hiff⟩ := render_resolveStoreType_iff hm hscalar hrender
  exact ⟨_, m₂, hm, hscalar, hrender, hm₂, hiff.mpr fun h => hnarrow h.1⟩

/-- A value of an enumeration over 64-bit unsigned integers is a decimal, which the store type alone
does not make of it. -/
theorem exists_render_resolveStoreType_error :
    ∃ m m₂, (default : Catalog).resolveType (.enum access) = some m ∧
      Literal.render m (.enum 3) = .ok "NUMERIC '3'" ∧
      (default : Catalog).resolveStoreType m.storeType = some m₂ ∧
      Literal.render m₂ (.enum 3) = .error (.conversion (.enum 3) "NUMERIC") := by
  have hm : (default : Catalog).resolveType (.enum access) =
      some ((Builtin.ofScalar .u64).withType (.enum access) |>.withConverter .enumToNumber) := by
    rw [resolveType, resolve, Option.map_none, Key.of, resolveKey_enumType, access,
      resolveKey_scalarType]
    rfl
  exact ⟨_, _, hm, rfl, resolveKey_builtin .numeric, rfl⟩

end Examples

end Catalog

end TypedSql
