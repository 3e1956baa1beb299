import TypedSql.Proofs.Literal.Rerendering
import TypedSql.Proofs.Wire.Tracking

/-!
# Sent scalars read back

A UUID, a character, an unsigned 64-bit integer and the number of an enumeration are sent in another
form, which the mapping that sent them reads back. What is sent depends on the converter first and
on the kind of the mapping after it, so that both have to fit together: they do for every mapping
that a catalog finds but those of enumerations over unsigned 64-bit integers, whose numbers are sent
as decimals.
-/

namespace TypedSql

open Numeral

/-! ## UUIDs -/

namespace Uuid

/-- Five groups of the lengths of a UUID are read by leaving out the hyphens between them. -/
theorem ofHyphenated?_groups {a b c d e : List Char} (ha : a.length = 8) (hb : b.length = 4)
    (hc : c.length = 4) (hd : d.length = 4) (he : e.length = 12) :
    ofHyphenated? (a ++ '-' :: b ++ '-' :: c ++ '-' :: d ++ '-' :: e) =
      ofPlain? (a ++ b ++ c ++ d ++ e) := by
  unfold ofHyphenated?
  have hdrop {l : List Char} {n : Nat} (h : l.length ≤ n) : l.drop n = [] :=
    List.drop_of_length_le h
  simp [List.drop_append, hdrop, ha, hb, hc, hd, he]

/-- A list is put together from a group and what comes after it. -/
theorem take_drop_append_drop {α : Type} (s : List α) (start length : Nat) :
    (s.drop start).take length ++ s.drop (start + length) = s.drop start := by
  rw [← List.drop_drop, List.take_append_drop]

/-- The digits of a UUID are read one by one. -/
theorem mapM_hexValue? (digits : List (Fin 16)) :
    (digits.map hexDigit).mapM hexValue? = some digits := by
  induction digits with
  | nil => rfl
  | cons first rest ih => simp [List.mapM_cons, hexValue?_hexDigit, ih]

/-- The text of a UUID is read as its digits. -/
theorem ofHyphenated?_text (u : Uuid) :
    ofHyphenated? u.text = ofPlain? (u.digits.map hexDigit) := by
  have hlength : (u.digits.map hexDigit).length = 32 := (List.length_map ..).trans u.length_eq
  unfold text
  generalize u.digits.map hexDigit = s at hlength
  extract_lets s'
  rw [ofHyphenated?_groups (by simp [s', hlength]) (by simp [s', hlength]) (by simp [s', hlength])
    (by simp [s', hlength]) (by simp [s', hlength])]
  congr 1
  rw [List.append_assoc, List.append_assoc, List.append_assoc, take_drop_append_drop s' 16 4,
    take_drop_append_drop s' 12 4, take_drop_append_drop s' 8 4, List.take_append_drop]

/-- A UUID is read back from its text. -/
theorem ofText?_text (u : Uuid) : ofText? u.text = some u := by
  have hlength : u.text.length = 36 := by simp [text, u.length_eq]
  rw [ofText?, if_neg (by omega), if_pos hlength, ofHyphenated?_text, ofPlain?, mapM_hexValue?]
  exact dif_pos u.length_eq

end Uuid

/-! ## Decimals -/

/-- An unsigned 64-bit integer is read back from the decimal. -/
theorem Numeral.Scaled.toUInt64?_ofInt (n : UInt64) :
    (Scaled.ofInt n.toNat).toUInt64? = some n := by
  have hnonneg : ¬(n.toNat : Int) < 0 := by omega
  simp [Scaled.toUInt64?, Scaled.ofInt, hnonneg, UInt64.toNat_lt_size]

/-! ## Scalar converters -/

/-- `Converts converter type kind`: values of a scalar type are converted and then stored as a
kind. -/
inductive Converts : Converter → HostType → ScalarKind → Prop
  | uuid : Converts .uuidToText (.scalar .uuid) .string
  | char : Converts .charToText (.scalar .char) .string
  | natural : Converts .naturalToDecimal (.scalar .u64) .decimal
  | enum {e : EnumType} (h : e.underlying.unwrapOption ≠ .scalar .u64) :
      Converts .enumToNumber (.enum e) .int64
  | wideEnum {e : EnumType} (h : e.underlying.unwrapOption = .scalar .u64) :
      Converts .enumToNumber (.enum e) .decimal

/-- The converters of single scalars. -/
def scalarConverters : List Converter :=
  [.enumToNumber, .uuidToText, .charToText, .naturalToDecimal]

namespace Catalog

variable {c : Catalog} {k : Key} {m : Mapping}

/-- A converter of the tables goes with its type and its kind. -/
theorem converts_of_ofHostType? {type : HostType} (h : Builtin.ofHostType? type = some m)
    {converter : Converter} (hconverter : m.converter = some converter) :
    ∃ kind, m.kind = .scalar kind ∧ Converts converter m.type kind := by
  unfold Builtin.ofHostType? at h
  split at h
  next s =>
    obtain rfl := Option.some.inj h
    cases s with
    | u64 =>
      cases hconverter
      exact ⟨_, rfl, .natural⟩
    | char =>
      cases hconverter
      exact ⟨_, rfl, .char⟩
    | uuid =>
      cases hconverter
      exact ⟨_, rfl, .uuid⟩
    | _ => cases hconverter
  next =>
    obtain rfl := Option.some.inj h
    cases hconverter
  next => cases h

/-- A scalar converter of a mapping that is found goes with the type and the kind. -/
theorem converts_of_resolves (h : Resolves c k m) {converter : Converter}
    (hconverter : m.converter = some converter) (hscalar : converter ∈ scalarConverters) :
    ∃ kind, m.kind = .scalar kind ∧ Converts converter m.type kind := by
  have hnamed {store : List Char} {m : Mapping} (hm : scalarNamed? store = some m) :
      m.converter = none := by
    obtain ⟨b, -, -, hb⟩ := scalarNamed?_alike hm
    rw [hb]
    cases b <;> rfl
  have harray {em m : Mapping} {l : ListType} (hm : arrayMapping? c.settings em l = some m)
      (hconverter : m.converter = some converter) : False := by
    obtain rfl := arrayMapping?_some hm
    obtain ⟨-, h⟩ := Option.ite_none_left_eq_some.mp hconverter
    cases h
    simp [scalarConverters] at hscalar
  induction h with
  | option _ ih => exact ih hconverter
  | @enum e _ _ _ hu hm =>
    obtain ⟨hinteger, rfl⟩ := enumMapping?_some hm
    cases hconverter
    rcases kind_of_isInteger hu hinteger with ⟨hkind, hwide⟩ | ⟨hkind, hnarrow⟩
    · exact ⟨.decimal, hkind, .wideEnum hwide⟩
    · exact ⟨.int64, hkind, .enum hnarrow⟩
  | struct => cases hconverter
  | record => cases hconverter
  | array _ _ hm => exact (harray hm hconverter).elim
  | list _ _ hm => exact (harray hm hconverter).elim
  | named hm => simp [hnamed hm] at hconverter
  | pair hstore hm =>
    rcases scalarPair?_cases hm with ⟨-, rfl⟩ | ⟨-, -, rfl⟩ | ⟨byType, hbyType, rfl⟩
    · simp [hnamed hstore] at hconverter
    · cases hconverter
      simp [scalarConverters] at hscalar
    · obtain ⟨htype, hkind, hconverter'⟩ := Mapping.withStoreFacets_alike byType _
      rw [htype, hkind]
      exact converts_of_ofHostType? hbyType (hconverter'.symm.trans hconverter)
  | builtin hm => exact converts_of_ofHostType? hm hconverter

end Catalog

/-! ## Sent and read back -/

namespace HostType

variable {v : Value}

/-- A value of a scalar type is null or has this type. -/
theorem Conforms.scalarType? {s : ScalarType} (h : Conforms (.scalar s) v) (hnull : v ≠ .null) :
    v.scalarType? = some s := by
  cases h with
  | null => exact absurd rfl hnull
  | scalar h => exact h

end HostType

section Converted

variable {m : Mapping} {converter : Converter} {type : HostType} {kind : ScalarKind} {v : Value}

/-- Scalar types are no enumerations. -/
theorem not_enum_scalar (s : ScalarType) : ¬∃ e, HostType.scalar s = .enum e ∧
    e.underlying.unwrapOption = .scalar .u64 := by
  rintro ⟨e, he, -⟩
  cases he

/-- A value that is converted as its type demands takes the form of the kind, and the converter
reads it back from there, unless it is the number of an enumeration that is sent as a decimal. -/
theorem ofStored_scalarValue_iff (h : Converts converter type kind) (hv : type.Conforms v)
    (hnull : v ≠ .null) : ∃ stored w, converter.toStored v = .ok stored ∧
      Wire.scalarValue m kind stored = .ok w ∧ w.isNull = false ∧
      (converter.ofStored w type = .ok v ↔
        ¬∃ e, type = .enum e ∧ e.underlying.unwrapOption = .scalar .u64) := by
  cases h with
  | uuid =>
    have hscalar := hv.scalarType? hnull
    cases v with
    | uuid u =>
      refine ⟨_, _, rfl, rfl, rfl, iff_of_true ?_ (not_enum_scalar _)⟩
      simp [Converter.ofStored, Uuid.ofText?_text]
    | _ => cases hscalar
  | char =>
    have hscalar := hv.scalarType? hnull
    cases v with
    | char ch =>
      refine ⟨_, _, rfl, rfl, rfl, iff_of_true ?_ (not_enum_scalar _)⟩
      simp [Converter.ofStored]
    | _ => cases hscalar
  | natural =>
    have hscalar := hv.scalarType? hnull
    cases v with
    | u64 n =>
      refine ⟨_, _, rfl, rfl, rfl, iff_of_true ?_ (not_enum_scalar _)⟩
      simp [Converter.ofStored, Scaled.toUInt64?_ofInt]
    | _ => cases hscalar
  | enum hnarrow =>
    obtain ⟨d, rfl⟩ := hv.enum_cases.resolve_left hnull
    refine ⟨_, _, rfl, rfl, rfl, iff_of_true rfl ?_⟩
    rintro ⟨_, he, hwide⟩
    cases he
    exact hnarrow hwide
  | wideEnum hwide =>
    obtain ⟨d, rfl⟩ := hv.enum_cases.resolve_left hnull
    refine ⟨_, _, rfl, rfl, rfl, iff_of_false ?_ (not_not_intro ⟨_, rfl, hwide⟩)⟩
    -- the converter takes integers only, and what is sent is a decimal
    intro hread
    cases hread

/-- A converted value is sent in the form of the kind, and read back from it by the converter. -/
theorem value_converted (hconverter : m.converter = some converter) (hkind : m.kind = .scalar kind)
    (h : Converts converter type kind) {stored w : Value} (hnull : v ≠ .null)
    (hstored : converter.toStored v = .ok stored) (hw : Wire.scalarValue m kind stored = .ok w)
    (hwnull : w.isNull = false) :
    Wire.value m v = .ok w ∧ m.ofStored w = converter.ofStored w m.type := by
  have htoStored : m.toStored v = .ok stored := by
    have hvnull : v.isNull = false := by cases v <;> first | rfl | exact absurd rfl hnull
    simpa [Mapping.toStored, hconverter, hvnull] using hstored
  have hprepare : m.prepare v = .ok (some stored) := by
    rcases Literal.prepare_cases v with rfl | ⟨lengths, items, rfl⟩ | hprepare
    · exact absurd rfl hnull
    · cases h <;> cases hstored
    · rw [hprepare, htoStored]
      rfl
  refine ⟨(Wire.value_scalar hkind hprepare).trans hw, ?_⟩
  simp only [Mapping.ofStored, hconverter, hwnull]
  rfl

end Converted

/-- A value other than null of a type that is mapped with a scalar converter is sent, and what is
sent is read back as the same value, unless the type is an enumeration over unsigned 64-bit
integers. -/
theorem Catalog.ofStored_sent_iff {c : Catalog} {t : HostType} {store : Option String} {m : Mapping}
    (h : c.resolve (some t) store = some m) {converter : Converter}
    (hconverter : m.converter = some converter) (hscalar : converter ∈ scalarConverters) {v : Value}
    (hv : t.Conforms v) (hnull : v ≠ .null) :
    ∃ w, Wire.value m v = .ok w ∧ (m.ofStored w = .ok v ↔ ¬t.IsWideEnum) := by
  have hresolves := resolves_of_resolveKey h
  have htype : m.type = t.unwrapOption := type_of_resolves hresolves (type_keyOf ..)
  obtain ⟨kind, hkind, hconverts⟩ := converts_of_resolves hresolves hconverter hscalar
  rw [htype] at hconverts
  obtain ⟨stored, w, hstored, hw, hwnull, hback⟩ :=
    ofStored_scalarValue_iff (m := m) hconverts hv.unwrapOption hnull
  obtain ⟨hsent, hread⟩ := value_converted hconverter hkind hconverts hnull hstored hw hwnull
  refine ⟨w, hsent, ?_⟩
  rw [hread, htype, hback]
  rfl

section Examples

open Catalog

/-- The largest unsigned number under a store type with facets. -/
theorem ofStored_sent_largest :
    ∃ m w, (default : Catalog).resolve (some (.scalar .u64)) (some "NUMERIC(20, 0)") = some m ∧
      m.converter = some .naturalToDecimal ∧ Wire.value m (.u64 18446744073709551615) = .ok w ∧
      m.ofStored w = .ok (.u64 18446744073709551615) := by
  have hm : (default : Catalog).resolve (some (.scalar .u64)) (some "NUMERIC(20, 0)") =
      some (Builtin.ofScalar .u64 |>.withStoreFacets "NUMERIC(20, 0)".toList) := by
    have hparse : StoreType.parse? "NUMERIC(20, 0)".toList = none := by decide
    exact (resolveKey_pair hparse (by simp) (by simp)).trans rfl
  have hconverter : (Builtin.ofScalar .u64 |>.withStoreFacets "NUMERIC(20, 0)".toList).converter =
      some .naturalToDecimal := rfl
  obtain ⟨w, hw, hback⟩ := ofStored_sent_iff hm hconverter (by decide)
    (v := .u64 18446744073709551615) (.scalar rfl) (by simp)
  exact ⟨_, w, hm, hconverter, hw, hback.mpr (not_enum_scalar .u64)⟩

/-- The number of an enumeration over unsigned 64-bit integers is sent as a decimal, which the
converter does not take. -/
theorem exists_ofStored_sent_error :
    ∃ m, (default : Catalog).resolve (some (.enum access)) none = some m ∧
      m.converter = some .enumToNumber ∧
      Wire.value m (.enum 3) = .ok (.decimal (.ofInt 3)) ∧
      m.ofStored (.decimal (.ofInt 3)) = .error (.conversion (.decimal (.ofInt 3)) "enum") := by
  have hm : (default : Catalog).resolve (some (.enum access)) none =
      some ((Builtin.ofScalar .u64).withType (.enum access) |>.withConverter .enumToNumber) := by
    rw [resolve, Option.map_none, Key.of, resolveKey_enumType, access, resolveKey_scalarType]
    rfl
  exact ⟨_, hm, rfl, rfl, rfl⟩

end Examples

end TypedSql
