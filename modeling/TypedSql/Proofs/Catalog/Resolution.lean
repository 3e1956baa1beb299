import TypedSql.Catalog.Resolve

/-!
# How keys are resolved

The mappings that a catalog finds, as a relation with one rule for each way to find one: by the type
inside an option, the type under an enumeration, the fields of a struct, the elements of an array,
or the tables of scalar types. Facts about all resolved mappings are proved by induction over it.
-/

namespace TypedSql.Catalog

open StoreType

/-- The host type of a struct store type: a record type, or one made of its fields. -/
def structType (record : Option RecordType) (fields : List Field) : HostType :=
  match record with
  | some r => .record r
  | none => anonymousRecord fields

/-- The fields of the tokens of a struct store type. -/
def tokenFields (record : Option RecordType) (mapping : FieldToken → Mapping)
    (tokens : List FieldToken) : List Field :=
  tokens.map fun token => structField record token (mapping token)

/-- The fields of the members that have a mapping. -/
def memberFields (found : Member → Option Mapping) (members : List Member) : List Field :=
  members.filterMap fun member =>
    (found member).map fun mapping => ⟨member.name, mapping, member.type, none⟩

/-- `Resolves c k m`: the mapping of a key is found in a catalog. -/
inductive Resolves (c : Catalog) : Key → Mapping → Prop
  | option {inner : HostType} {store : Option (List Char)} {m : Mapping}
      (h : Resolves c ⟨some inner, store⟩ m) :
      Resolves c ⟨some (.option inner), store⟩ (nullable m)
  | enum {e : EnumType} {store : Option (List Char)} {u m : Mapping}
      (h : Resolves c ⟨some e.underlying, store⟩ u)
      (hm : enumMapping? (.enum e) (some u) = some m) : Resolves c ⟨some (.enum e), store⟩ m
  | struct {record : Option RecordType} {store : List Char} {tokens : List FieldToken}
      {mapping : FieldToken → Mapping} (hparse : parse? store = some (.struct tokens))
      (h : ∀ token ∈ tokens, Resolves c (Key.ofField record token) (mapping token)) :
      Resolves c ⟨record.map .record, some store⟩
        (.struct (tokenFields record mapping tokens) (some (String.ofList store))
          (structType record (tokenFields record mapping tokens)))
  | record {r : RecordType} {found : Member → Option Mapping} (hcomposite : r.composite = true)
      (hne : memberFields found r.mappedMembers ≠ [])
      (h : ∀ member ∈ r.mappedMembers, ∀ m, found member = some m →
        Resolves c ⟨some member.type, none⟩ m) :
      Resolves c ⟨some (.record r), none⟩
        (.struct (memberFields found r.mappedMembers) none (.record r))
  | array {list : Option ListType} {store element : List Char} {em m : Mapping}
      (hparse : parse? store = some (.array element))
      (h : Resolves c (Key.of (list.map (·.element)) (some element)) em)
      (hm : arrayMapping? c.settings em (list.getD ⟨em.type, .list⟩) = some m) :
      Resolves c ⟨list.map .list, some store⟩ m
  | list {l : ListType} {em m : Mapping} (hbytes : ¬(HostType.list l).isByteSequence = true)
      (h : Resolves c ⟨some l.element, none⟩ em)
      (hm : arrayMapping? c.settings em l = some m) : Resolves c ⟨some (.list l), none⟩ m
  | named {store : List Char} {m : Mapping} (hm : scalarNamed? store = some m) :
      Resolves c ⟨none, some store⟩ m
  | pair {type : HostType} {store : List Char} {byStore m : Mapping}
      (hstore : scalarNamed? store = some byStore) (hm : scalarPair? type store byStore = some m) :
      Resolves c ⟨some type, some store⟩ m
  | builtin {type : HostType} {m : Mapping} (hm : Builtin.ofHostType? type = some m) :
      Resolves c ⟨some type, none⟩ m

/-! ## Plain lookups -/

section Plain

variable {c : Catalog} {n : Nat}

/-- The lookup of smaller keys in a catalog. -/
abbrev plain (c : Catalog) (n : Nat) : Lookup Id n := fun k _ => pure (c.resolveKey k)

/-- The mapping of a struct field; any for a field that has none. -/
def fieldMapping (c : Catalog) (record : Option RecordType) (token : FieldToken) : Mapping :=
  (c.resolveKey (Key.ofField record token)).getD Builtin.bool.mapping

/-- A struct store type has fields when each of its tokens has a mapping. -/
theorem fieldsOfTokens_eq_some {record : Option RecordType} {tokens : List FieldToken}
    {small : ∀ t ∈ tokens, (Key.ofField record t).size < n} {fields : List Field}
    (h : Id.run (fieldsOfTokens record (plain c n) tokens small) = some fields) :
    fields = tokenFields record (fieldMapping c record) tokens ∧
      ∀ token ∈ tokens,
        c.resolveKey (Key.ofField record token) = some (fieldMapping c record token) := by
  induction tokens generalizing fields with
  | nil =>
    cases h
    exact ⟨rfl, fun _ ht => absurd ht List.not_mem_nil⟩
  | cons token rest ih =>
    rw [fieldsOfTokens] at h
    cases hk : c.resolveKey (Key.ofField record token) with
    | none => simp [plain, hk] at h
    | some mapping =>
      simp only [plain, hk, pure_bind, Id.run_bind, Id.run_pure, Option.map_eq_some_iff] at h
      obtain ⟨others, hothers, rfl⟩ := h
      obtain ⟨rfl, hrest⟩ := ih hothers
      have hmapping : fieldMapping c record token = mapping := by simp [fieldMapping, hk]
      rw [List.forall_mem_cons, hmapping]
      refine ⟨?_, hk, hrest⟩
      rw [tokenFields, tokenFields, List.map_cons, hmapping]

/-- The fields of a record are those of its members that have a mapping. -/
theorem fieldsOfMembers_eq {members : List Member}
    {small : ∀ member ∈ members, member.type.size < n} :
    Id.run (fieldsOfMembers (plain c n) members small) =
      memberFields (fun member => c.resolveKey ⟨some member.type, none⟩) members := by
  induction members with
  | nil => rfl
  | cons member rest ih =>
    have hrest := @ih fun t ht => small t (List.mem_cons_of_mem _ ht)
    rw [memberFields] at hrest
    rw [fieldsOfMembers, memberFields, List.filterMap_cons, ← hrest]
    cases hk : c.resolveKey ⟨some member.type, none⟩ <;> simp [plain, hk]

variable {k : Key} {m : Mapping}

/-- Whether all smaller keys with a mapping are resolved. -/
def ResolvesBelow (c : Catalog) (k : Key) : Prop :=
  ∀ k', k'.size < k.size → ∀ m, c.resolveKey k' = some m → Resolves c k' m

/-- A struct store type is resolved by its fields. -/
theorem resolves_of_structOfTokens (record : Option RecordType) {store : List Char}
    {tokens : List FieldToken} (hparse : parse? store = some (.struct tokens))
    (hbelow : ResolvesBelow c ⟨record.map .record, some store⟩)
    (h : Id.run (structOfTokens record store tokens hparse (plain c _)) = some m) :
    Resolves c ⟨record.map .record, some store⟩ m := by
  simp only [structOfTokens, Id.run_bind, Id.run_pure, Option.map_eq_some_iff] at h
  obtain ⟨fields, hfields, rfl⟩ := h
  obtain ⟨rfl, htokens⟩ := fieldsOfTokens_eq_some hfields
  have hstruct : Resolves c ⟨record.map .record, some store⟩ _ := .struct hparse fun token ht =>
    hbelow _ (Key.size_ofField_lt hparse token ht) _ (htokens token ht)
  cases record <;> exact hstruct

/-- An array store type is resolved by its element. -/
theorem resolves_of_arrayOfToken (list : Option ListType) {store element : List Char}
    (hparse : parse? store = some (.array element))
    (hbelow : ResolvesBelow c ⟨list.map .list, some store⟩)
    (h : Id.run (arrayOfToken c.settings list store element hparse (plain c _)) = some m) :
    Resolves c ⟨list.map .list, some store⟩ m := by
  simp only [arrayOfToken, plain, Id.run_bind, Id.run_pure, Option.bind_eq_some_iff] at h
  obtain ⟨em, helement, hm⟩ := h
  exact .array hparse (hbelow _ (Key.size_element_lt hparse) em helement) hm

/-- A composite record is resolved by its members. -/
theorem resolves_of_structOfRecord {r : RecordType} (hcomposite : r.composite = true)
    (hbelow : ResolvesBelow c ⟨some (.record r), none⟩)
    (h : Id.run (structOfRecord r (plain c _)) = some m) :
    Resolves c ⟨some (.record r), none⟩ m := by
  simp only [structOfRecord, Id.run_bind, Id.run_pure, fieldsOfMembers_eq] at h
  split at h
  next => simp at h
  next hne =>
    obtain rfl := Option.some.inj h
    refine .record hcomposite (fun hnil => hne (by rw [hnil]; rfl)) fun member hmember m hm => ?_
    refine hbelow _ ?_ m hm
    simpa [Key.size, Key.typeSize, Key.storeSize] using Key.size_mappedMember_lt member hmember

/-- A sequence is resolved by its element. -/
theorem resolves_of_arrayOfList {l : ListType} (hbytes : ¬(HostType.list l).isByteSequence = true)
    (hbelow : ResolvesBelow c ⟨some (.list l), none⟩)
    (h : Id.run (arrayOfList c.settings l (plain c _)) = some m) :
    Resolves c ⟨some (.list l), none⟩ m := by
  simp only [arrayOfList, plain, Id.run_bind, Id.run_pure, Option.bind_eq_some_iff] at h
  obtain ⟨em, helement, hm⟩ := h
  exact .list hbytes (hbelow _ Key.size_listElement_lt em helement) hm

/-- A mapping built for a struct or an array is resolved. -/
theorem resolves_of_buildComposite (hbelow : ResolvesBelow c k)
    (h : Id.run (buildComposite c.settings k (plain c k.size)) = some m) : Resolves c k m := by
  obtain ⟨type, _ | store⟩ := k
  · cases type with
    | none => simp [buildComposite] at h
    | some t =>
      cases t with
      | record r =>
        rw [buildComposite] at h
        split at h
        next hcomposite => exact resolves_of_structOfRecord hcomposite hbelow h
        next => simp at h
      | list l =>
        rw [buildComposite] at h
        split at h
        next => simp at h
        next hbytes => exact resolves_of_arrayOfList hbytes hbelow h
      | _ => simp [buildComposite] at h
  · rw [buildComposite] at h
    split at h
    next tokens hparse =>
      cases type with
      | none => exact resolves_of_structOfTokens none hparse hbelow h
      | some t =>
        cases t with
        | record r => exact resolves_of_structOfTokens (some r) hparse hbelow h
        | _ => simp at h
    next element hparse =>
      cases type with
      | none => exact resolves_of_arrayOfToken none hparse hbelow h
      | some t =>
        cases t with
        | list l => exact resolves_of_arrayOfToken (some l) hparse hbelow h
        | _ => simp at h
    next => simp at h

/-- An enumeration is resolved by its underlying type. -/
theorem resolves_of_buildEnum {e : EnumType} {store : Option (List Char)}
    (hbelow : ResolvesBelow c ⟨some (.enum e), store⟩)
    (h : Id.run (buildEnum e store (plain c _)) = some m) :
    Resolves c ⟨some (.enum e), store⟩ m := by
  simp only [buildEnum, plain, Id.run_bind, Id.run_pure] at h
  cases hk : c.resolveKey ⟨some e.underlying, store⟩ with
  | none => simp [hk, enumMapping?] at h
  | some u => exact .enum (hbelow _ Key.size_underlying_lt u hk) (hk ▸ h)

/-- A scalar host type under a store type is resolved by the tables. -/
theorem resolves_of_pair {type : HostType} {store : List Char}
    (h : (scalarNamed? store).bind (scalarPair? type store) = some m) :
    Resolves c ⟨some type, some store⟩ m := by
  obtain ⟨byStore, hstore, hm⟩ := Option.bind_eq_some_iff.mp h
  exact .pair hstore hm

/-- A mapping built for a scalar is resolved. -/
theorem resolves_of_buildScalar (hbelow : ResolvesBelow c k)
    (h : Id.run (buildScalar k (plain c k.size)) = some m) : Resolves c k m := by
  obtain ⟨_ | type, _ | store⟩ := k
  · simp [buildScalar] at h
  · exact .named h
  · cases type with
    | enum e => exact resolves_of_buildEnum hbelow h
    | _ => exact .builtin h
  · cases type with
    | enum e =>
      rw [buildScalar] at h
      split at h
      · simp at h
      · exact resolves_of_buildEnum hbelow h
    | _ => exact resolves_of_pair h

/-- A mapping that is built is resolved. -/
theorem resolves_of_build (hbelow : ResolvesBelow c k)
    (h : Id.run (build c.settings k (plain c k.size)) = some m) : Resolves c k m := by
  unfold build at h
  split at h
  next inner store lookup hlookup =>
    simp only [buildOption, plain, Id.run_bind, Id.run_pure, Option.map_eq_some_iff] at h
    obtain ⟨found, hfound, rfl⟩ := h
    exact .option (hbelow _ Key.size_inner_lt found hfound)
  next =>
    rw [Id.run_bind] at h
    split at h
    next mapping hcomposite =>
      obtain rfl := Option.some.inj h
      exact resolves_of_buildComposite hbelow hcomposite
    next => exact resolves_of_buildScalar hbelow h

end Plain

/-- Every mapping that a catalog finds is resolved. -/
theorem resolves_of_resolveKey {c : Catalog} {k : Key} {m : Mapping}
    (h : c.resolveKey k = some m) : Resolves c k m := by
  induction k using resolveKey.induct generalizing m with
  | case1 k ih =>
    rw [resolveKey] at h
    exact resolves_of_build (fun k' hk' m' hm' => ih k' hk' hm') h

end TypedSql.Catalog
