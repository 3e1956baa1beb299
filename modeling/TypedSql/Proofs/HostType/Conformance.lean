import TypedSql.HostType.Record
import TypedSql.Mapping.Document
import TypedSql.Proofs.Numeral.Widening
import TypedSql.Proofs.Result

/-!
# Values of a host type

When a value is one of a host type: null always is, a scalar has its own variant, an option is as
what it wraps, and lists and records conform part by part. Values of a host type whose floats are
finite have a JSON document.
-/

namespace TypedSql

/-! ## Records -/

namespace Entries

variable {α : Type} {r : Entries α} {name : String} {a : α}

/-- What stands under a name is one of the entries. -/
theorem mem_of_get? (h : r.get? name = some a) : (name, a) ∈ r.toList := by
  obtain ⟨⟨n, b⟩, hfind, rfl⟩ := Option.map_eq_some_iff.mp h
  have hname : n = name := by simpa using List.find?_some hfind
  rw [← hname]
  exact List.mem_of_find?_eq_some hfind

/-- Every entry of distinct names stands under its name. -/
theorem get?_of_mem (hdistinct : r.Distinct) (h : (name, a) ∈ r.toList) : r.get? name = some a := by
  obtain ⟨entries⟩ := r
  induction entries with
  | nil => exact absurd h List.not_mem_nil
  | cons first rest ih =>
    obtain ⟨hfirst, hrest⟩ := List.nodup_cons.mp hdistinct
    rcases List.mem_cons.mp h with rfl | h
    · simp [get?]
    · have hne : first.1 ≠ name := fun hname => hfirst (hname ▸ List.mem_map_of_mem h)
      have hget := ih hrest h
      rw [get?] at hget
      rw [get?, List.find?_cons_of_neg (by simpa using hne), hget]

/-- Under each of its names a record has an entry. -/
theorem exists_get?_of_mem_names (h : name ∈ r.names) : ∃ a, r.get? name = some a := by
  obtain ⟨entry, hentry, rfl⟩ := List.mem_map.mp h
  have hfind : (r.toList.find? fun e => e.1 == entry.1).isSome = true :=
    List.find?_isSome.mpr ⟨entry, hentry, beq_self_eq_true _⟩
  obtain ⟨found, hfound⟩ := Option.isSome_iff_exists.mp hfind
  exact ⟨found.2, by rw [get?, hfound, Option.map_some]⟩

/-- An entry found in any case has a name that agrees with the one asked for. -/
theorem exists_sameName_of_getIgnoringCase? (h : r.getIgnoringCase? name = some a) :
    ∃ n ∈ r.names, Text.sameName n name = true := by
  unfold getIgnoringCase? at h
  split at h
  next b hget =>
    exact ⟨name, List.mem_map_of_mem (mem_of_get? hget), Text.sameName_refl name⟩
  next =>
    obtain ⟨entry, hfind, -⟩ := Option.map_eq_some_iff.mp h
    exact ⟨entry.1, List.mem_map_of_mem (List.mem_of_find?_eq_some hfind), by
      simpa using List.find?_some hfind⟩

/-- An entry of exactly the name is found in any case. -/
theorem getIgnoringCase?_of_get? (h : r.get? name = some a) : r.getIgnoringCase? name = some a := by
  rw [getIgnoringCase?, h]

/-! Entries inserted one after the other -/

/-- A name that is new is appended. -/
theorem put_of_not_mem {name : String} {items : List (String × α)} (a : α)
    (h : name ∉ items.map Prod.fst) : put name a items = items ++ [(name, a)] := by
  induction items with
  | nil => rfl
  | cons first rest ih =>
    rw [List.map_cons, List.mem_cons, not_or] at h
    rw [put, if_neg fun heq => h.1 heq.symm, ih h.2, List.cons_append]

/-- Entries under new and distinct names are appended in order. -/
theorem toList_foldl_insert {r : Entries α} {items : List (String × α)}
    (h : ((r.toList ++ items).map Prod.fst).Nodup) :
    (items.foldl (fun r item => r.insert item.1 item.2) r).toList = r.toList ++ items := by
  induction items generalizing r with
  | nil => exact (List.append_nil _).symm
  | cons first rest ih =>
    have hnew : first.1 ∉ r.toList.map Prod.fst := by
      rw [List.map_append, List.nodup_append] at h
      exact fun hmem => h.2.2 _ hmem _ (List.mem_cons_self ..) rfl
    have hput : (r.insert first.1 first.2).toList = r.toList ++ [first] :=
      put_of_not_mem first.2 hnew
    rw [List.foldl_cons, ih, hput, List.append_assoc, List.singleton_append]
    rwa [hput, List.append_assoc, List.singleton_append]

/-- Entries with distinct names are kept as they are. -/
theorem toList_ofList {items : List (String × α)} (h : (items.map Prod.fst).Nodup) :
    (ofList items).toList = items :=
  toList_foldl_insert (r := empty) h

/-- Putting an entry brings in no other one. -/
theorem mem_of_mem_put {entry : String × α} {items : List (String × α)}
    (h : entry ∈ put name a items) : entry = (name, a) ∨ entry ∈ items := by
  induction items with
  | nil => exact .inl (List.mem_singleton.mp h)
  | cons first rest ih =>
    rw [put] at h
    split at h
    next hname =>
      subst hname
      exact (List.mem_cons.mp h).imp_right (List.mem_cons_of_mem _)
    next =>
      rcases List.mem_cons.mp h with rfl | h
      · exact .inr (List.mem_cons_self ..)
      · exact (ih h).imp_right (List.mem_cons_of_mem _)

/-- What is among entries that were inserted was there before or is one of them. -/
theorem mem_of_mem_foldl_insert {items : List (String × α)} {entry : String × α}
    (h : entry ∈ (items.foldl (fun r item => r.insert item.1 item.2) r).toList) :
    entry ∈ r.toList ∨ entry ∈ items := by
  induction items generalizing r with
  | nil => exact .inl h
  | cons first rest ih =>
    rcases ih h with h | h
    · rcases mem_of_mem_put h with rfl | h
      · exact .inr (List.mem_cons_self ..)
      · exact .inl h
    · exact .inr (List.mem_cons_of_mem _ h)

/-- Entries that were inserted have the names that were there before and their own. -/
theorem mem_names_foldl_insert {items : List (String × α)} :
    name ∈ (items.foldl (fun r item => r.insert item.1 item.2) r).names ↔
      name ∈ r.names ∨ name ∈ items.map Prod.fst := by
  induction items generalizing r with
  | nil => simp
  | cons first rest ih =>
    have hput : name ∈ (r.insert first.1 first.2).names ↔ name ∈ r.names ∨ name = first.1 := by
      unfold names Entries.insert
      rw [names_put]
      split <;> simp_all
    rw [List.foldl_cons, ih, hput, List.map_cons, List.mem_cons, or_assoc]

/-- The names of entries that were inserted are distinct. -/
theorem distinct_foldl_insert {r : Entries α} (h : r.Distinct) (items : List (String × α)) :
    (items.foldl (fun r item => r.insert item.1 item.2) r).Distinct := by
  induction items generalizing r with
  | nil => exact h
  | cons first rest ih => exact ih (h.insert first.1 first.2)

/-- The names of entries are distinct. -/
theorem distinct_ofList (items : List (String × α)) : (ofList items).Distinct :=
  distinct_foldl_insert (r := empty) List.nodup_nil items

/-- Entries that were inserted have their names. -/
theorem mem_names_ofList {items : List (String × α)} :
    name ∈ (ofList items).names ↔ name ∈ items.map Prod.fst :=
  (mem_names_foldl_insert (r := empty)).trans (or_iff_right List.not_mem_nil)

/-- An entry of some that were inserted is found under its name, if all of that name have its
value. -/
theorem get?_ofList {items : List (String × α)} (hname : name ∈ items.map Prod.fst)
    (h : ∀ item ∈ items, item.1 = name → item.2 = a) : (ofList items).get? name = some a := by
  obtain ⟨entry, hentry, rfl⟩ := List.mem_map.mp (mem_names_ofList.mpr hname)
  have hitem : entry ∈ items :=
    (mem_of_mem_foldl_insert (r := empty) hentry).resolve_left List.not_mem_nil
  exact get?_of_mem (distinct_ofList items) (h entry hitem rfl ▸ hentry)

end Entries

/-! ## Conforming values -/

namespace HostType

/-- `Conforms t v`: a value is one of a host type. Null is one of every type, and a fixed-length
array of 8-bit unsigned integers has no null among its items. -/
inductive Conforms : HostType → Value → Prop
  | null {t : HostType} : Conforms t .null
  | scalar {s : ScalarType} {v : Value} (h : v.scalarType? = some s) : Conforms (.scalar s) v
  | option {inner : HostType} {v : Value} (h : Conforms inner v) : Conforms (.option inner) v
  | enum {e : EnumType} {discriminant : Int64} : Conforms (.enum e) (.enum discriminant)
  | bytes {items : List Value} (h : ∀ item ∈ items, ∃ b, item = .u8 b) :
      Conforms (.list ⟨.scalar .u8, .array⟩) (.list items)
  | list {l : ListType} {items : List Value} (hbytes : l ≠ ⟨.scalar .u8, .array⟩)
      (h : ∀ item ∈ items, Conforms l.element item) : Conforms (.list l) (.list items)
  | record {r : RecordType} {entries : Record} (hdistinct : entries.Distinct)
      (hmembers : ∀ m ∈ r.members, (entries.get? m.name).isSome)
      (hnames : ∀ name ∈ entries.names, ∃ m ∈ r.members, m.name = name)
      (h : ∀ m ∈ r.members, ∀ v, entries.get? m.name = some v → Conforms m.type v) :
      Conforms (.record r) (.record entries)

variable {v : Value}

/-- Conforming items of a list conform to its element type. -/
theorem Conforms.items {l : ListType} {items : List Value} (h : Conforms (.list l) (.list items)) :
    ∀ item ∈ items, Conforms l.element item := by
  cases h with
  | bytes h =>
    intro item hitem
    obtain ⟨b, rfl⟩ := h item hitem
    exact .scalar rfl
  | list _ h => exact h

/-- A value of an optional type is one of the type itself. -/
theorem Conforms.of_option {inner : HostType} (h : Conforms (.option inner) v) :
    Conforms inner v := by
  cases h with
  | null => exact .null
  | option h => exact h

/-- A value of a type is one of the type without options. -/
theorem Conforms.unwrapOption {t : HostType} (h : t.Conforms v) : t.unwrapOption.Conforms v := by
  induction h with
  | null => exact .null
  | scalar h => exact .scalar h
  | option _ ih => exact ih
  | enum => exact .enum
  | bytes h => exact .bytes h
  | list hbytes h => exact .list hbytes h
  | record hdistinct hmembers hnames h => exact .record hdistinct hmembers hnames h

/-- A value of a list type is null or a list. -/
theorem Conforms.list_cases {l : ListType} (h : Conforms (.list l) v) :
    v = .null ∨ ∃ items, v = .list items := by
  cases h with
  | null => exact Or.inl rfl
  | bytes | list => exact Or.inr ⟨_, rfl⟩

/-- A value of a record type is null or a record. -/
theorem Conforms.record_cases {r : RecordType} (h : Conforms (.record r) v) :
    v = .null ∨ ∃ entries, v = .record entries := by
  cases h with
  | null => exact Or.inl rfl
  | record => exact Or.inr ⟨_, rfl⟩

/-- A record of a record type has the names of its members. -/
theorem Conforms.mem_names_iff {r : RecordType} {entries : Record}
    (h : Conforms (.record r) (.record entries)) {name : String} :
    name ∈ entries.names ↔ ∃ member ∈ r.members, member.name = name := by
  cases h with
  | record _ hmembers hnames _ =>
    refine ⟨hnames name, ?_⟩
    rintro ⟨member, hmember, rfl⟩
    obtain ⟨w, hget⟩ := Option.isSome_iff_exists.mp (hmembers member hmember)
    exact List.mem_map_of_mem (Entries.mem_of_get? hget)

/-- A value of a record or list type is null, a record or a list. -/
theorem Conforms.composite_cases {t : HostType} (ht : t.isRecord = true ∨ t.isList = true)
    (h : Conforms t v) :
    v = .null ∨ (∃ entries, v = .record entries) ∨ ∃ items, v = .list items := by
  cases t with
  | record r => exact h.record_cases.imp_right .inl
  | list l => exact h.list_cases.imp_right .inr
  | _ => simp [isRecord, isList] at ht

/-- A value of an enumeration is null or has a discriminant. -/
theorem Conforms.enum_cases {e : EnumType} (h : Conforms (.enum e) v) :
    v = .null ∨ ∃ discriminant, v = .enum discriminant := by
  cases h with
  | null => exact Or.inl rfl
  | enum => exact Or.inr ⟨_, rfl⟩

end HostType

/-! ## Documents of finite values -/

namespace Value

mutual

/-- Whether every float in a value is finite. -/
def Finite : Value → Prop
  | .f32 x => x.isFinite = true
  | .f64 x => x.isFinite = true
  | .list items => FiniteItems items
  | .multi _ items => FiniteItems items
  | .record ⟨entries⟩ => FiniteEntries entries
  | _ => True

/-- Whether every float in some items is finite. -/
def FiniteItems : List Value → Prop
  | [] => True
  | item :: rest => Finite item ∧ FiniteItems rest

/-- Whether every float in some entries is finite. -/
def FiniteEntries : List (String × Value) → Prop
  | [] => True
  | (_, v) :: rest => Finite v ∧ FiniteEntries rest

end

/-- Items are finite when each of them is. -/
theorem finiteItems_iff {items : List Value} : FiniteItems items ↔ ∀ v ∈ items, Finite v := by
  induction items with
  | nil => simp [FiniteItems]
  | cons item rest ih => simp [FiniteItems, ih]

/-- Entries are finite when each value is. -/
theorem finiteEntries_iff {entries : List (String × Value)} :
    FiniteEntries entries ↔ ∀ entry ∈ entries, Finite entry.2 := by
  induction entries with
  | nil => simp [FiniteEntries]
  | cons entry rest ih => simp [FiniteEntries, ih]

open Result

/-- Items have documents when each of them has one. -/
theorem succeeds_itemDocuments {items : List Value} :
    Succeeds (itemDocuments items) ↔ ∀ v ∈ items, Succeeds v.toDocument := by
  induction items with
  | nil => exact iff_of_true (succeeds_ok []) fun _ h => absurd h List.not_mem_nil
  | cons item rest ih =>
    rw [List.forall_mem_cons, ← ih, itemDocuments, succeeds_bind]
    constructor
    · rintro ⟨j, hj, hrest⟩
      obtain ⟨js, hjs, -⟩ := succeeds_bind.mp hrest
      exact ⟨⟨j, hj⟩, js, hjs⟩
    · rintro ⟨⟨j, hj⟩, js, hjs⟩
      exact ⟨j, hj, succeeds_bind.mpr ⟨js, hjs, succeeds_ok _⟩⟩

/-- Entries have documents when each value has one. -/
theorem succeeds_entryDocuments {entries : List (String × Value)} {done : List (String × Json)} :
    Succeeds (entryDocuments done entries) ↔ ∀ entry ∈ entries, Succeeds entry.2.toDocument := by
  induction entries generalizing done with
  | nil => exact iff_of_true (succeeds_ok done) fun _ h => absurd h List.not_mem_nil
  | cons entry rest ih =>
    rw [List.forall_mem_cons, entryDocuments, succeeds_bind]
    constructor
    · rintro ⟨j, hj, hrest⟩
      exact ⟨⟨j, hj⟩, ih.mp hrest⟩
    · rintro ⟨⟨j, hj⟩, hrest⟩
      exact ⟨j, hj, ih.mpr hrest⟩

/-- A finite float has a document. -/
theorem succeeds_floatDocument {v : Value} {x : Numeral.Binary64} (h : x.isFinite = true) :
    Succeeds (floatDocument v x) := by
  rw [floatDocument, if_pos h]
  exact succeeds_ok _

/-- A finite value of a host type has a document. -/
theorem succeeds_toDocument {t : HostType} {v : Value} (hv : t.Conforms v) (hfinite : v.Finite) :
    Succeeds v.toDocument := by
  induction hv with
  | null => exact succeeds_ok _
  | @scalar s v h =>
    cases v with
    | f32 x =>
      rw [toDocument]
      exact succeeds_floatDocument (Numeral.Binary32.isFinite_widen hfinite)
    | f64 x =>
      rw [toDocument]
      exact succeeds_floatDocument hfinite
    | _ => first | exact succeeds_ok _ | simp [scalarType?] at h
  | option _ ih => exact ih hfinite
  | enum => exact succeeds_ok _
  | @bytes items h =>
    rw [toDocument, succeeds_map, succeeds_itemDocuments]
    intro item hitem
    obtain ⟨b, rfl⟩ := h item hitem
    exact succeeds_ok _
  | list _ _ ih =>
    rw [Finite, finiteItems_iff] at hfinite
    rw [toDocument, succeeds_map, succeeds_itemDocuments]
    intro item hitem
    exact ih item hitem (hfinite item hitem)
  | @record r entries hdistinct hmembers hnames _ ih =>
    rw [Finite, finiteEntries_iff] at hfinite
    rw [toDocument, succeeds_map, succeeds_entryDocuments]
    intro entry hentry
    obtain ⟨m, hm, hname⟩ := hnames entry.1 (List.mem_map_of_mem hentry)
    exact ih m hm entry.2 (hname ▸ Entries.get?_of_mem hdistinct hentry) (hfinite entry hentry)

end Value

end TypedSql
