import TypedSql.Proofs.Catalog.Alone

/-!
# Records taken apart and put together

Every field of a struct mapping looks up the member that its name means, whether the mapping was
built from a store type or from the record alone. So a record that is taken apart by the mapping for
its type and put together again has its own values under the names that can be written.
-/

namespace TypedSql.Catalog

variable {c : Catalog} {k : Key} {m : Mapping} {r : RecordType}

/-! ## Fields of a mapping -/

/-- The fields of a mapping for a record type look up the members that their names mean. -/
theorem looksUp_of_resolves (h : Resolves c k m) (hk : k.type = some (.record r))
    {fields : List Field} (hfields : m.fields? = some fields) : ∀ f ∈ fields, f.LooksUp r := by
  have hscalar {b : Builtin} (hkind : m.kind = b.mapping.kind) : False := by
    rw [Mapping.fields?, hkind] at hfields
    cases b <;> cases hfields
  cases h with
  | @struct record =>
    cases record with
    | none => cases hk
    | some _ =>
      cases hk
      obtain rfl := Option.some.inj hfields
      intro f hf
      obtain ⟨token, -, rfl⟩ := List.mem_map.mp hf
      exact looksUp_structField token _
  | record =>
    cases hk
    obtain rfl := Option.some.inj hfields
    intro f hf
    obtain ⟨member, hmember, hfound⟩ := List.mem_filterMap.mp hf
    obtain ⟨mapping, -, rfl⟩ := Option.map_eq_some_iff.mp hfound
    exact Field.looksUp_member (List.mem_filter.mp hmember).1 mapping
  | pair hstore hm =>
    obtain ⟨-, -, b, hb⟩ := storeType_of_scalarPair? hstore hm
    exact (hscalar hb.kind).elim
  | builtin hm =>
    obtain ⟨b, hb⟩ := bare_of_ofHostType? hm
    exact (hscalar hb.kind).elim
  | @array list => cases list <;> cases hk
  | option | enum | list | named => cases hk

/-- Taken apart by a struct mapping for its type and put together again, a record has distinct
names, exactly those of the members that back some field and can be written, and under each the
value that it had. Fields that no member backs take nothing and change nothing. -/
theorem rebuild_of_resolve {store : Option String} {fields : List Field} {v : Record}
    (h : c.resolve (some (.record r)) store = some m) (hfields : m.fields? = some fields)
    (hv : ∀ name, name ∈ v.names ↔ ∃ member ∈ r.members, member.name = name) :
    (Field.rebuild fields v r).Distinct ∧
      (∀ name, name ∈ (Field.rebuild fields v r).names ↔
        ∃ member, (∃ f ∈ fields, r.Backs f.name member) ∧ member.writable = true ∧
          member.name = name) ∧
      (∀ name ∈ (Field.rebuild fields v r).names,
        ∃ w, v.get? name = some w ∧ (Field.rebuild fields v r).get? name = some w) ∧
      ∀ before f after, fields = before ++ f :: after → (∀ member, ¬r.Backs f.name member) →
        f.extract v = none ∧ Field.rebuild (before ++ after) v r = Field.rebuild fields v r := by
  have hlooks := looksUp_of_resolves (resolves_of_resolveKey h) (type_keyOf ..) hfields
  refine ⟨?_, fun name => Field.mem_names_rebuild hlooks hv, fun name hname => ?_, ?_⟩
  · rw [Field.rebuild_eq]
    exact Entries.distinct_ofList _
  · obtain ⟨w, hw⟩ := Entries.exists_get?_of_mem_names hname
    exact ⟨w, (Field.get?_rebuild hlooks hv hname).symm.trans hw, hw⟩
  · rintro before f after rfl hnone
    have hf := hlooks f (by simp)
    exact ⟨Field.extract_unbacked hv hf hnone, (Field.rebuild_unbacked hf hnone).symm⟩

section Examples

/-- A record with names that differ in case, one of them read-only. -/
def contact : RecordType :=
  ⟨"Contact", false, [⟨"mail", .scalar .string, true, true⟩, ⟨"Mail", .scalar .string, true, true⟩,
    ⟨"initials", .scalar .string, true, false⟩]⟩

/-- A store type with fields in other cases and another order, one of them backed by nothing. -/
def contactStore : String := "STRUCT<Initials STRING, Phone STRING, Mail STRING, MAIL STRING>"

/-- The fields of the store type. -/
def contactFields : List Field :=
  [⟨"Initials", Builtin.string.mapping, .scalar .string, some "initials"⟩,
    ⟨"Phone", Builtin.string.mapping, .scalar .string, none⟩,
    ⟨"Mail", Builtin.string.mapping, .scalar .string, none⟩,
    ⟨"MAIL", Builtin.string.mapping, .scalar .string, some "mail"⟩]

/-- The mapping is found. -/
theorem resolve_contact : (default : Catalog).resolve (some (.record contact)) (some contactStore) =
    some (.struct contactFields (some contactStore) (.record contact)) := by
  have hparse : StoreType.parse? contactStore.toList = some (.struct (["Initials", "Phone", "Mail",
      "MAIL"].map fun name => ⟨name.toList, "STRING".toList⟩)) := by decide
  have hscalar : StoreType.parse? "STRING".toList = none := by decide
  have hstring : (default : Catalog).resolveKey ⟨some (.scalar .string), some "STRING".toList⟩ =
      some Builtin.string.mapping :=
    (resolveKey_pair hscalar (by simp) (by simp)).trans rfl
  have hunbacked : (default : Catalog).resolveKey ⟨none, some "STRING".toList⟩ =
      some Builtin.string.mapping := (resolveKey_named hscalar).trans rfl
  have hfield : ∀ name ∈ ["Initials", "Phone", "Mail", "MAIL"], (default : Catalog).resolveKey
      (Key.ofField (some contact) ⟨name.toList, "STRING".toList⟩) =
        some Builtin.string.mapping :=
    List.forall_mem_cons.mpr ⟨hstring, List.forall_mem_cons.mpr ⟨hunbacked,
      List.forall_mem_cons.mpr ⟨hstring, List.forall_mem_singleton.mpr hstring⟩⟩⟩
  have hmapping (name : String) (hname : name ∈ ["Initials", "Phone", "Mail", "MAIL"]) :=
    fieldMapping_eq (hfield name hname)
  refine (resolveKey_struct (some contact) hparse ?_).trans ?_
  · intro token ht
    obtain ⟨name, hname, rfl⟩ := List.mem_map.mp ht
    rw [hmapping name hname, hfield name hname]
  · have hfields : tokenFields (some contact) (fieldMapping default (some contact))
        (["Initials", "Phone", "Mail", "MAIL"].map fun name => ⟨name.toList, "STRING".toList⟩) =
          contactFields := by
      rw [tokenFields, List.map_map]
      refine (List.map_congr_left fun name hname => ?_).trans
        (show ["Initials", "Phone", "Mail", "MAIL"].map (fun name => structField (some contact)
          ⟨name.toList, "STRING".toList⟩ Builtin.string.mapping) = contactFields from rfl)
      rw [Function.comp_apply, hmapping name hname]
    rw [hfields]
    rfl

/-- A value of the record, in another order. -/
def contactValue : Record :=
  ⟨[("initials", .string "ab"), ("Mail", .string "b"), ("mail", .string "a")]⟩

/-- Both names are backed by a field of their own, and the read-only one is left out. -/
theorem rebuild_of_resolve_contact :
    (Field.rebuild contactFields contactValue contact).Distinct ∧
      (Field.rebuild contactFields contactValue contact).names = ["Mail", "mail"] ∧
      (∃ w, contactValue.get? "mail" = some w ∧
        (Field.rebuild contactFields contactValue contact).get? "mail" = some w) := by
  have hperm : contactValue.names.Perm (contact.members.map (·.name)) := by decide
  have hv : ∀ name, name ∈ contactValue.names ↔
      ∃ member ∈ contact.members, member.name = name :=
    fun _ => hperm.mem_iff.trans List.mem_map
  obtain ⟨hdistinct, -, hvalues, -⟩ := rebuild_of_resolve resolve_contact rfl hv
  exact ⟨hdistinct, by decide, hvalues "mail" (by decide)⟩

end Examples

end TypedSql.Catalog
