import TypedSql.Mapping.Basic
import TypedSql.Proofs.HostType.Conformance

/-!
# Members behind fields

A struct takes the members of a record in the order of its fields, and makes a record of such values
again. The member behind a field is looked up by the name of the field first, and by its own name
when values are taken and put back. All lookups find the same member, so that a record comes back
with its own values under the names that can be written.
-/

namespace TypedSql

/-! ## Backing members -/

namespace RecordOf

variable {τ : Type} {r : RecordOf τ} {name : String} {member : MemberOf τ}

/-- `r.Backs name member`: the member is the one that a name means, the first of exactly this name,
or where there is none of exactly this name the first that agrees with it up to ASCII case. -/
inductive Backs (r : RecordOf τ) (name : String) (member : MemberOf τ) : Prop
  | exact {before after : List (MemberOf τ)} (h : r.members = before ++ member :: after)
      (hname : member.name = name) (hfirst : ∀ m ∈ before, m.name ≠ name)
  | alike {before after : List (MemberOf τ)} (h : r.members = before ++ member :: after)
      (hnone : ∀ m ∈ r.members, m.name ≠ name) (hsame : Text.sameName member.name name = true)
      (hfirst : ∀ m ∈ before, ¬Text.sameName m.name name = true)

/-- The lookup of a member finds the one that backs a name. -/
theorem member?_eq_some_iff : r.member? name = some member ↔ r.Backs name member := by
  have hnot (b : Bool) : (!b) = true ↔ ¬b = true := by simp
  rw [member?, findNamed]
  split
  next found hfound =>
    obtain ⟨hname, before, after, hsplit, hfirst⟩ := List.find?_eq_some_iff_append.mp hfound
    simp only [hnot, beq_iff_eq] at hname hfirst
    constructor
    · intro h
      obtain rfl := Option.some.inj h
      exact .exact hsplit hname hfirst
    · intro h
      cases h with
      | exact h hname' hfirst' =>
        rw [← hfound, List.find?_eq_some_iff_append]
        exact ⟨beq_iff_eq.mpr hname', _, _, h, by simpa using hfirst'⟩
      | alike _ hnone => exact absurd hname (hnone found (by simp [hsplit]))
  next hnone =>
    simp only [List.find?_eq_none, beq_iff_eq] at hnone
    rw [List.find?_eq_some_iff_append]
    constructor
    · rintro ⟨hsame, before, after, hsplit, hfirst⟩
      exact .alike hsplit hnone hsame (by simpa using hfirst)
    · intro h
      cases h with
      | exact h hname => exact absurd hname (hnone member (by simp [h]))
      | alike h _ hsame hfirst => exact ⟨hsame, _, _, h, by simpa using hfirst⟩

/-- The member that backs a name is one of the record, which agrees with the name. -/
theorem Backs.mem (h : r.Backs name member) : member ∈ r.members :=
  findNamed_mem (member?_eq_some_iff.mpr h)

/-- The member that backs a name in any case backs its own name. -/
theorem Backs.own (h : r.Backs name member) : r.Backs member.name member := by
  cases h with
  | exact h hname hfirst => exact .exact h rfl (hname ▸ hfirst)
  | alike h _ hsame hfirst => exact .exact h rfl fun m hm hname => hfirst m hm (hname ▸ hsame)

/-- A member is found by every name that agrees with its own. -/
theorem exists_member (hmember : member ∈ r.members)
    (hsame : Text.sameName member.name name = true) : ∃ found, r.member? name = some found := by
  rw [member?, findNamed]
  split
  · exact ⟨_, rfl⟩
  · exact Option.isSome_iff_exists.mp (List.find?_isSome.mpr ⟨member, hmember, hsame⟩)

/-- A name that no member backs finds none. -/
theorem member?_eq_none (h : ∀ member, ¬r.Backs name member) : r.member? name = none := by
  cases hfound : r.member? name with
  | some member => exact absurd (member?_eq_some_iff.mp hfound) (h member)
  | none => rfl

end RecordOf

namespace Field

variable {r : RecordType} {fields : List Field} {f : Field} {v : Record} {w : Value}
  {member : Member}

/-! ## One field -/

/-- `f.LooksUp r`: a field looks up the member that its name means, or its name where it means
none. -/
def LooksUp (f : Field) (r : RecordType) : Prop :=
  f.memberName = ((r.member? f.name).map (·.name)).getD f.name

/-- A field looks up the member that backs it by its name. -/
theorem LooksUp.memberName (h : f.LooksUp r) (hmember : r.Backs f.name member) :
    f.memberName = member.name := by
  rw [h, RecordOf.member?_eq_some_iff.mpr hmember]
  rfl

/-- A field that no member backs looks up its own name. -/
theorem LooksUp.memberName_of_unbacked (h : f.LooksUp r)
    (hnone : ∀ member, ¬r.Backs f.name member) : f.memberName = f.name := by
  rw [h, RecordOf.member?_eq_none hnone]
  rfl

/-- A field of a member looks up its name, which means a member of that name. -/
theorem looksUp_member (hmember : member ∈ r.members) (mapping : Mapping) :
    LooksUp ⟨member.name, mapping, member.type, none⟩ r := by
  obtain ⟨found, hfound⟩ := RecordOf.exists_member hmember (Text.sameName_refl member.name)
  have hname : found.name = member.name := by
    cases RecordOf.member?_eq_some_iff.mp hfound with
    | exact _ hname => exact hname
    | alike _ hnone => exact absurd rfl (hnone member hmember)
  rw [LooksUp, hfound]
  exact hname.symm

/-- The value of a field that no member backs goes nowhere. -/
theorem entryOf_unbacked (h : f.LooksUp r) (hnone : ∀ member, ¬r.Backs f.name member) :
    entry? r f w = none := by
  unfold entry?
  rw [h.memberName_of_unbacked hnone, RecordOf.member?_eq_none hnone]

/-- The value of a field goes under the name of the member that backs it, if that can be written. -/
theorem entryOf_backed (h : f.LooksUp r) (hmember : r.Backs f.name member) :
    entry? r f w = if member.writable then some (member.name, w) else none := by
  unfold entry?
  rw [h.memberName hmember, RecordOf.member?_eq_some_iff.mpr hmember.own]

section Extract

variable (hv : ∀ name, name ∈ v.names ↔ ∃ member ∈ r.members, member.name = name)

include hv

/-- A field takes the entry of the member that backs it. -/
theorem extract_backed (h : f.LooksUp r) (hmember : r.Backs f.name member) :
    ∃ w, v.get? member.name = some w ∧ f.extract v = some w := by
  obtain ⟨w, hw⟩ :=
    Entries.exists_get?_of_mem_names ((hv member.name).mpr ⟨member, hmember.mem, rfl⟩)
  refine ⟨w, hw, ?_⟩
  rw [extract, h.memberName hmember, Entries.getIgnoringCase?_of_get? hw]

/-- A field that no member backs takes nothing: every entry belongs to a member, and one with a name
that agrees would back the field. -/
theorem extract_unbacked (h : f.LooksUp r) (hnone : ∀ member, ¬r.Backs f.name member) :
    f.extract v = none := by
  cases hw : f.extract v with
  | none => rfl
  | some w =>
    rw [extract, h.memberName_of_unbacked hnone] at hw
    obtain ⟨n, hn, hsame⟩ := Entries.exists_sameName_of_getIgnoringCase? hw
    obtain ⟨member, hmember, rfl⟩ := (hv n).mp hn
    obtain ⟨found, hfound⟩ := RecordOf.exists_member hmember hsame
    exact absurd (RecordOf.member?_eq_some_iff.mp hfound) (hnone found)

end Extract

/-! ## All fields -/

/-- A record taken apart by some fields and put together again, with null for what is missing. -/
def rebuild (fields : List Field) (v : Record) (r : RecordType) : Record :=
  toRecord fields ((extractAll fields v).map (·.getD .null)) r

/-- The entries that the fields make of the values that they take. -/
def entries (fields : List Field) (v : Record) (r : RecordType) : List (String × Value) :=
  fields.filterMap fun f => entry? r f ((f.extract v).getD .null)

/-- A record is put together again from the entries that its fields make. -/
theorem rebuild_eq (fields : List Field) (v : Record) (r : RecordType) :
    rebuild fields v r = .ofList (entries fields v r) := by
  rw [rebuild, toRecord, extractAll, List.map_map, ← List.map_prod_left_eq_zip, List.filterMap_map]
  rfl

/-- A field that no member backs can be left out. -/
theorem rebuild_unbacked {before after : List Field} (h : f.LooksUp r)
    (hnone : ∀ member, ¬r.Backs f.name member) :
    rebuild (before ++ f :: after) v r = rebuild (before ++ after) v r := by
  have hskip : entries (f :: after) v r = entries after v r :=
    List.filterMap_cons_none (entryOf_unbacked h hnone)
  rw [rebuild_eq, rebuild_eq]
  unfold entries at hskip ⊢
  rw [List.filterMap_append, List.filterMap_append, hskip]

section Rebuild

variable (hfields : ∀ f ∈ fields, f.LooksUp r)
  (hv : ∀ name, name ∈ v.names ↔ ∃ member ∈ r.members, member.name = name) {name : String}

include hfields hv

/-- The entries are those of the members that back a field and can be written. -/
theorem mem_entries_iff : (name, w) ∈ entries fields v r ↔
    v.get? name = some w ∧ ∃ member, (∃ f ∈ fields, r.Backs f.name member) ∧
      member.writable = true ∧ member.name = name := by
  rw [entries, List.mem_filterMap]
  constructor
  · rintro ⟨f, hf, hentry⟩
    by_cases hbacked : ∃ member, r.Backs f.name member
    · obtain ⟨member, hmember⟩ := hbacked
      obtain ⟨w', hget, hextract⟩ := extract_backed hv (hfields f hf) hmember
      rw [entryOf_backed (hfields f hf) hmember, hextract] at hentry
      obtain ⟨hwritable, hentry⟩ := Option.ite_none_right_eq_some.mp hentry
      cases hentry
      exact ⟨hget, member, ⟨f, hf, hmember⟩, hwritable, rfl⟩
    · rw [entryOf_unbacked (hfields f hf) (not_exists.mp hbacked)] at hentry
      cases hentry
  · rintro ⟨hw, member, ⟨f, hf, hmember⟩, hwritable, rfl⟩
    refine ⟨f, hf, ?_⟩
    obtain ⟨w', hget, hextract⟩ := extract_backed hv (hfields f hf) hmember
    obtain rfl := Option.some.inj (hw.symm.trans hget)
    rw [entryOf_backed (hfields f hf) hmember, if_pos hwritable, hextract, Option.getD_some]

/-- The names are those of the members that back a field and can be written. -/
theorem mem_names_rebuild : name ∈ (rebuild fields v r).names ↔
    ∃ member, (∃ f ∈ fields, r.Backs f.name member) ∧ member.writable = true ∧
      member.name = name := by
  rw [rebuild_eq, Entries.mem_names_ofList, List.mem_map]
  constructor
  · rintro ⟨⟨_, w⟩, hentry, rfl⟩
    exact ((mem_entries_iff hfields hv).mp hentry).2
  · rintro ⟨member, ⟨f, hf, hmember⟩, hwritable, rfl⟩
    obtain ⟨w, hget, -⟩ := extract_backed hv (hfields f hf) hmember
    exact ⟨_, (mem_entries_iff hfields hv).mpr ⟨hget, member, ⟨f, hf, hmember⟩, hwritable, rfl⟩,
      rfl⟩

/-- Every entry is that of the record that was taken apart, however often it was put in. -/
theorem get?_rebuild (h : name ∈ (rebuild fields v r).names) :
    (rebuild fields v r).get? name = v.get? name := by
  rw [rebuild_eq, Entries.mem_names_ofList] at h
  obtain ⟨⟨_, w⟩, hentry, rfl⟩ := List.mem_map.mp h
  have hget := ((mem_entries_iff hfields hv).mp hentry).1
  rw [hget, rebuild_eq]
  refine Entries.get?_ofList h fun item hitem hname => ?_
  obtain ⟨hget', -⟩ := (mem_entries_iff hfields hv).mp hitem
  rw [hname, hget] at hget'
  exact (Option.some.inj hget').symm

end Rebuild

end Field

end TypedSql
