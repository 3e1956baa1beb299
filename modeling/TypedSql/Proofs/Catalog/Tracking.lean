import TypedSql.Proofs.Catalog.Alone
import TypedSql.Proofs.Wire.Tracking

/-!
# Change tracking

Whatever mapping a catalog finds, a change that shows in what is sent also shows in the comparison
of values, as long as nothing of a document escapes the comparer.
-/

namespace TypedSql

open Result

namespace Mapping

/-- A mapping that differs in no kind, comparer and converter tracks its parts as well. -/
theorem Tracks.of_eq {m m' : Mapping} (h : m.Tracks) (hkind : m'.kind = m.kind)
    (hcomparer : m'.comparer = m.comparer) (hconverter : m'.converter = m.converter) :
    m'.Tracks := by
  cases h with
  | scalar hscalar => exact .scalar (hkind.trans hscalar)
  | array harray hjson helement h =>
    exact .array (hkind.trans harray) (hconverter ▸ hjson) (hcomparer ▸ helement) h
  | struct hstruct hjson hmembers h =>
    exact .struct (hkind.trans hstruct) (hconverter ▸ hjson) (hcomparer ▸ hmembers) h

/-- Arrays track their elements. -/
theorem tracks_array {element : Mapping} (l : ListType) (convention : Shape)
    (h : element.Tracks) : (Mapping.array element l convention).Tracks := by
  refine .array rfl ?_ rfl h
  simp only [Mapping.array]
  split <;> simp

/-- Structs track their fields. -/
theorem tracks_struct {fields : List Field} (store : Option String) (type : HostType)
    (h : ∀ f ∈ fields, f.mapping.Tracks) : (Mapping.struct fields store type).Tracks :=
  .struct rfl (by simp [Mapping.struct]) rfl h

/-- Scalars have no parts to track. -/
theorem tracks_builtin {m : Mapping} {b : Builtin} (h : m.kind = b.mapping.kind) : m.Tracks := by
  cases b <;> exact .scalar h

end Mapping

namespace Catalog

variable {c : Catalog} {k : Key} {m : Mapping}

/-- Every mapping that is found tracks its parts. -/
theorem tracks_of_resolves (h : Resolves c k m) : m.Tracks := by
  induction h with
  | option _ ih => exact ih.of_eq rfl rfl rfl
  | enum hu hm =>
    obtain ⟨hinteger, rfl⟩ := enumMapping?_some hm
    rcases storesIntegers_of_resolves hu hinteger with hkind | hkind <;> exact .scalar hkind
  | struct _ _ ih =>
    refine Mapping.tracks_struct _ _ fun f hf => ?_
    obtain ⟨token, ht, rfl⟩ := List.mem_map.mp hf
    rw [structField_mapping]
    exact ih token ht
  | record _ _ _ ih =>
    refine Mapping.tracks_struct _ _ fun f hf => ?_
    obtain ⟨member, hmember, hfound⟩ := List.mem_filterMap.mp hf
    obtain ⟨mapping, hmapping, rfl⟩ := Option.map_eq_some_iff.mp hfound
    exact ih member hmember mapping hmapping
  | array _ _ hm ih | list _ _ hm ih =>
    rw [arrayMapping?_some hm]
    exact Mapping.tracks_array _ _ ih
  | named hm =>
    obtain ⟨b, -, hkind, -⟩ := scalarNamed?_alike hm
    exact Mapping.tracks_builtin hkind
  | pair hstore hm =>
    obtain ⟨-, -, b, hb⟩ := storeType_of_scalarPair? hstore hm
    exact Mapping.tracks_builtin hb.kind
  | builtin hm =>
    obtain ⟨b, hb⟩ := bare_of_ofHostType? hm
    exact Mapping.tracks_builtin hb.kind

/-- Values that are equal under the comparer of a mapping are sent alike, or neither is sent. Where
they are stored as documents nothing may escape the comparer: records have the same names, all of
them names of mapped members, and equal decimals have the same digits. -/
theorem sent_alike_of_equals {type : Option HostType} {store : Option String} {a b : Value}
    (h : c.resolve type store = some m) (heq : m.comparer.equals a b = true)
    (ha : a.WellFormed) (hb : b.WellFormed) (hsees : m.SeesDocuments a b) :
    Related Value.Alike (Wire.value m a) (Wire.value m b) :=
  Wire.related_value_of_tracks (tracks_of_resolves (resolves_of_resolveKey h)) heq ha hb hsees

section Examples

/-- A record that is stored as a document, with a member that cannot be written. -/
def share (writable : Bool) : RecordType :=
  ⟨"Share", false, [⟨"name", .scalar .string, true, true⟩, ⟨"part", .scalar .f64, true, writable⟩]⟩

/-- The mapping of the record under a document type. -/
def shareMapping (writable : Bool) : Mapping :=
  (Builtin.json.mapping.withType (.record (share writable))).withConverter .toJson

/-- The mapping is found. -/
theorem resolve_share (writable : Bool) : (default : Catalog).resolve
    (some (.record (share writable))) (some "JSON") = some (shareMapping writable) := by
  have hparse : StoreType.parse? "JSON".toList = none := by decide
  exact (resolveKey_pair hparse (by simp) (by simp)).trans rfl

/-- A value of the record, in order of its members. -/
def inOrder (part : Numeral.Binary64) : Value :=
  .record (.ofList [("name", .string "x"), ("part", .f64 part)])

/-- A value of the record, in another order. -/
def outOfOrder (part : Numeral.Binary64) : Value :=
  .record (.ofList [("part", .f64 part), ("name", .string "x")])

/-- Values of the record have distinct names. -/
theorem wellFormed_share (part : Numeral.Binary64) :
    (inOrder part).WellFormed ∧ (outOfOrder part).WellFormed := by
  have hname : (Value.string "x").WellFormed := Value.wellFormed_scalar rfl rfl
  have hpart : (Value.f64 part).WellFormed := Value.wellFormed_scalar rfl rfl
  have hdistinct : ["name", "part"].Nodup ∧ ["part", "name"].Nodup := by decide
  exact ⟨Value.wellFormed_record hdistinct.1
      (List.forall_mem_cons.mpr ⟨hname, List.forall_mem_singleton.mpr hpart⟩),
    Value.wellFormed_record hdistinct.2
      (List.forall_mem_cons.mpr ⟨hpart, List.forall_mem_singleton.mpr hname⟩)⟩

/-- The comparer reads all members of the record, if all of them can be written. -/
theorem seesDocuments_share (part part' : Numeral.Binary64) :
    (shareMapping true).SeesDocuments (inOrder part) (outOfOrder part') := by
  intro m' a' b' hpaired _ c' x y hread
  cases hpaired with
  | whole =>
    cases hread with
    | whole =>
      refine ⟨fun name => ?_, ?_⟩
      · exact (List.Perm.swap "part" "name" []).mem_iff
      · intro members hc name hname
        cases hc
        exact hname
    | member hc hmember hx hy hread =>
      cases hc
      rcases List.mem_cons.mp hmember with rfl | hmember
      · cases hx
        cases hy
        cases hread with
        | whole => trivial
      · obtain rfl := List.mem_singleton.mp hmember
        cases hx
        cases hy
        cases hread with
        | whole => trivial
    | entry hc => cases hc
  | field hkind => cases hkind

/-- Records in different order, with zeros of different sign, are stored as the same document. -/
theorem sent_alike_of_equals_reordered :
    (shareMapping true).comparer.equals (inOrder ⟨0⟩) (outOfOrder ⟨0x8000000000000000⟩) = true ∧
      Related Value.Alike (Wire.value (shareMapping true) (inOrder ⟨0⟩))
        (Wire.value (shareMapping true) (outOfOrder ⟨0x8000000000000000⟩)) := by
  have hequals :
      (shareMapping true).comparer.equals (inOrder ⟨0⟩) (outOfOrder ⟨0x8000000000000000⟩) = true :=
    rfl
  exact ⟨hequals, sent_alike_of_equals (resolve_share true) hequals (wellFormed_share _).1
    (wellFormed_share _).2 (seesDocuments_share _ _)⟩

/-- The document of a value of the record. -/
def shareDocument (part : Numeral.Binary64) : Json :=
  .object [("name", .text "x"), ("part", .number (.float part))]

/-- A member that cannot be written is stored in a document and changes unseen. -/
theorem exists_equals_not_sent_alike :
    ∃ m a b, (default : Catalog).resolve (some (.record (share false))) (some "JSON") = some m ∧
      m.comparer.equals a b = true ∧ a.WellFormed ∧ b.WellFormed ∧
      Wire.value m a = .ok (.json (shareDocument ⟨0⟩)) ∧
      Wire.value m b = .ok (.json (shareDocument ⟨0x3ff0000000000000⟩)) ∧
      ¬Value.Alike (.json (shareDocument ⟨0⟩)) (.json (shareDocument ⟨0x3ff0000000000000⟩)) := by
  refine ⟨shareMapping false, inOrder ⟨0⟩, inOrder ⟨0x3ff0000000000000⟩, resolve_share false, rfl,
    (wellFormed_share _).1, (wellFormed_share _).1, rfl, rfl, fun halike => ?_⟩
  cases halike with
  | json hsame => exact absurd hsame (by decide)

end Examples

end Catalog

end TypedSql
