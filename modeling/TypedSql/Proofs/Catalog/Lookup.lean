import TypedSql.Proofs.Catalog.Resolution

/-!
# Looking up keys

What a catalog finds for a key, by the form of the key: an option is looked up as its inner type, a
struct field by field, an array by its element, and a scalar store type in the tables.
-/

namespace TypedSql.Catalog

open StoreType

variable {c : Catalog}

/-- The mapping of a key is built from those that the catalog finds for smaller keys. -/
theorem resolveKey_eq (c : Catalog) (k : Key) :
    c.resolveKey k = Id.run (build c.settings k (plain c k.size)) := by
  rw [resolveKey]

/-- An optional type has the mapping of the type itself, for values that may be absent. -/
theorem resolveKey_option (inner : HostType) (store : Option (List Char)) :
    c.resolveKey ⟨some (.option inner), store⟩ =
      (c.resolveKey ⟨some inner, store⟩).map nullable := by
  rw [resolveKey_eq]
  rfl

/-- The mapping of a field, when it has one. -/
theorem fieldMapping_eq {record : Option RecordType} {token : FieldToken}
    {m : Mapping}
    (h : c.resolveKey (Key.ofField record token) = some m) : fieldMapping c record token = m := by
  rw [fieldMapping, h, Option.getD_some]

/-- The fields of a struct store type are found when each of its tokens has a mapping. -/
theorem fieldsOfTokens_eq {n : Nat} {record : Option RecordType} {tokens : List FieldToken}
    (small : ∀ t ∈ tokens, (Key.ofField record t).size < n)
    (h : ∀ t ∈ tokens, c.resolveKey (Key.ofField record t) = some (fieldMapping c record t)) :
    Id.run (fieldsOfTokens record (plain c n) tokens small) =
      some (tokenFields record (fieldMapping c record) tokens) := by
  induction tokens with
  | nil => rfl
  | cons token rest ih =>
    obtain ⟨htoken, hrest⟩ := List.forall_mem_cons.mp h
    have hothers := ih (fun t ht => small t (List.mem_cons_of_mem _ ht)) hrest
    rw [fieldsOfTokens]
    simp [plain, htoken, hothers, tokenFields]

/-- What is built for a struct or an array is found. -/
theorem resolveKey_of_buildComposite {k : Key} {m : Mapping}
    (hoption : ∀ inner, k.type ≠ some (.option inner))
    (h : Id.run (buildComposite c.settings k (plain c k.size)) = some m) :
    c.resolveKey k = some m := by
  rw [resolveKey_eq]
  unfold build
  split
  next => exact absurd rfl (hoption _)
  next => simp [h]

/-- What is built for a scalar is found, when it is no struct or array. -/
theorem resolveKey_of_buildScalar {k : Key} (hoption : ∀ inner, k.type ≠ some (.option inner))
    (h : Id.run (buildComposite c.settings k (plain c k.size)) = none) :
    c.resolveKey k = Id.run (buildScalar k (plain c k.size)) := by
  rw [resolveKey_eq]
  unfold build
  split
  next => exact absurd rfl (hoption _)
  next => simp [h]

/-! ## Structs and arrays -/

section Composite

variable {m : Type → Type} [Monad m] {settings : Settings} {store : List Char}

/-- A struct store type is built from its tokens. -/
theorem buildComposite_struct (record : Option RecordType) {tokens : List FieldToken}
    (hparse : parse? store = some (.struct tokens))
    (lookup : Lookup m (Key.mk (record.map .record) (some store)).size) :
    buildComposite settings ⟨record.map .record, some store⟩ lookup =
      structOfTokens record store tokens hparse lookup := by
  cases record
  all_goals
    simp only [Option.map_none, Option.map_some] at lookup ⊢
    rw [buildComposite]
    split
    next tokens' hparse' =>
      obtain rfl : tokens = tokens' := by simpa [hparse] using hparse'
      rfl
    next hparse' => simp [hparse] at hparse'
    next hparse' => simp [hparse] at hparse'

/-- An array store type is built from its element. -/
theorem buildComposite_array (list : Option ListType) {element : List Char}
    (hparse : parse? store = some (.array element))
    (lookup : Lookup m (Key.mk (list.map .list) (some store)).size) :
    buildComposite settings ⟨list.map .list, some store⟩ lookup =
      arrayOfToken settings list store element hparse lookup := by
  cases list
  all_goals
    simp only [Option.map_none, Option.map_some] at lookup ⊢
    rw [buildComposite]
    split
    next hparse' => simp [hparse] at hparse'
    next element' hparse' =>
      obtain rfl : element = element' := by simpa [hparse] using hparse'
      rfl
    next hparse' => simp [hparse] at hparse'

/-- Nothing is built for a struct store type under a host type that is no record. -/
theorem buildComposite_struct_of_ne {type : HostType} {tokens : List FieldToken}
    (hparse : parse? store = some (.struct tokens)) (hrecord : ∀ r, type ≠ .record r)
    (lookup : Lookup m (Key.mk (some type) (some store)).size) :
    buildComposite settings ⟨some type, some store⟩ lookup = pure none := by
  rw [buildComposite]
  split
  next =>
    cases type with
    | record r => exact absurd rfl (hrecord r)
    | _ => rfl
  next hparse' => simp [hparse] at hparse'
  next hparse' => simp [hparse] at hparse'

/-- Nothing is built for an array store type under a host type that is no sequence. -/
theorem buildComposite_array_of_ne {type : HostType} {element : List Char}
    (hparse : parse? store = some (.array element)) (hlist : ∀ l, type ≠ .list l)
    (lookup : Lookup m (Key.mk (some type) (some store)).size) :
    buildComposite settings ⟨some type, some store⟩ lookup = pure none := by
  rw [buildComposite]
  split
  next hparse' => simp [hparse] at hparse'
  next =>
    cases type with
    | list l => exact absurd rfl (hlist l)
    | _ => rfl
  next hparse' => simp [hparse] at hparse'

/-- Nothing is built for a store type that is neither a struct nor an array. -/
theorem buildComposite_scalar {type : Option HostType} (hparse : parse? store = none)
    (lookup : Lookup m (Key.mk type (some store)).size) :
    buildComposite settings ⟨type, some store⟩ lookup = pure none := by
  rw [buildComposite]
  split
  next hparse' => simp [hparse] at hparse'
  next hparse' => simp [hparse] at hparse'
  next => rfl

end Composite

/-- A struct store type has a mapping when each of its fields has one. -/
theorem resolveKey_struct (record : Option RecordType) {store : List Char}
    {tokens : List FieldToken} (hparse : parse? store = some (.struct tokens))
    (h : ∀ t ∈ tokens, c.resolveKey (Key.ofField record t) = some (fieldMapping c record t)) :
    c.resolveKey ⟨record.map .record, some store⟩ =
      some (.struct (tokenFields record (fieldMapping c record) tokens)
        (some (String.ofList store))
        (structType record (tokenFields record (fieldMapping c record) tokens))) := by
  refine resolveKey_of_buildComposite (by cases record <;> simp) ?_
  rw [buildComposite_struct record hparse, structOfTokens, Id.run_bind, Id.run_pure]
  have hfields := fieldsOfTokens_eq (Key.size_ofField_lt hparse) h
  cases record <;> exact congrArg (Option.map _) hfields

/-- An array store type has a mapping when its element has one that an array can have. -/
theorem resolveKey_array (list : Option ListType) {store element : List Char} {em m : Mapping}
    (hparse : parse? store = some (.array element))
    (h : c.resolveKey (Key.of (list.map (·.element)) (some element)) = some em)
    (hm : arrayMapping? c.settings em (list.getD ⟨em.type, .list⟩) = some m) :
    c.resolveKey ⟨list.map .list, some store⟩ = some m := by
  refine resolveKey_of_buildComposite (by cases list <;> simp) ?_
  rw [buildComposite_array list hparse, arrayOfToken]
  simp [plain, h, hm]

/-! ## Host types -/

/-- A scalar host type has its default mapping. -/
theorem resolveKey_scalarType (s : ScalarType) :
    c.resolveKey ⟨some (.scalar s), none⟩ = some (Builtin.ofScalar s) := by
  rw [resolveKey_of_buildScalar (by simp) (by rfl)]
  rfl

/-- An enumeration has the mapping of its underlying type. -/
theorem resolveKey_enumType (e : EnumType) : c.resolveKey ⟨some (.enum e), none⟩ =
    enumMapping? (.enum e) (c.resolveKey ⟨some e.underlying, none⟩) := by
  rw [resolveKey_of_buildScalar (by simp) (by rfl)]
  rfl

/-- Values that show no type have no mapping. -/
theorem resolveKey_unknown : c.resolveKey ⟨some .unknown, none⟩ = none := by
  rw [resolveKey_of_buildScalar (by simp) (by rfl)]
  rfl

/-- A sequence of bytes is stored as such. -/
theorem resolveKey_byteArray : c.resolveKey ⟨some (.list ⟨.scalar .u8, .array⟩), none⟩ =
    some (Builtin.bytes.mapping.withType (.arrayOf (.scalar .u8))) := by
  rw [resolveKey_of_buildScalar (by simp) (by rfl)]
  rfl

/-- Sequences other than those of bytes are not stored as scalars. -/
theorem ofHostType?_list {l : ListType} (hbytes : (HostType.list l).isByteSequence = false) :
    Builtin.ofHostType? (.list l) = none := by
  unfold Builtin.ofHostType?
  split
  next heq => cases heq
  next heq =>
    cases heq
    exact absurd hbytes (by decide)
  next => rfl

/-- A sequence that is no byte sequence has a mapping when its element has one that an array can
have. -/
theorem resolveKey_listType {l : ListType} (hbytes : (HostType.list l).isByteSequence = false) :
    c.resolveKey ⟨some (.list l), none⟩ =
      (c.resolveKey ⟨some l.element, none⟩).bind fun em => arrayMapping? c.settings em l := by
  have hbuild : Id.run (buildComposite c.settings ⟨some (.list l), none⟩ (plain c _)) =
      (c.resolveKey ⟨some l.element, none⟩).bind fun em => arrayMapping? c.settings em l := by
    rw [buildComposite, hbytes]
    rfl
  cases hm : (c.resolveKey ⟨some l.element, none⟩).bind fun em => arrayMapping? c.settings em l with
  | some m => exact resolveKey_of_buildComposite (by simp) (hbuild.trans hm)
  | none =>
    rw [resolveKey_of_buildScalar (by simp) (hbuild.trans hm)]
    exact ofHostType?_list hbytes

/-- The fields of a composite record's default mapping. -/
def defaultFields (c : Catalog) (r : RecordType) : List Field :=
  memberFields (fun member => c.resolveKey ⟨some member.type, none⟩) r.mappedMembers

/-- A composite record has a mapping when one of its members has one. -/
theorem resolveKey_recordType (r : RecordType) : c.resolveKey ⟨some (.record r), none⟩ =
    if r.composite ∧ defaultFields c r ≠ [] then some (.struct (defaultFields c r) none (.record r))
    else none := by
  cases hcomposite : r.composite with
  | false =>
    rw [resolveKey_of_buildScalar (by simp) (by rw [buildComposite, hcomposite]; rfl)]
    rfl
  | true =>
    have hbuild : Id.run (buildComposite c.settings ⟨some (.record r), none⟩ (plain c _)) =
        if (defaultFields c r).isEmpty then none
        else some (.struct (defaultFields c r) none (.record r)) := by
      rw [buildComposite, hcomposite, if_pos rfl, structOfRecord, Id.run_bind, fieldsOfMembers_eq]
      rfl
    cases hfields : defaultFields c r with
    | nil =>
      rw [hfields] at hbuild
      rw [resolveKey_of_buildScalar (by simp) hbuild]
      rfl
    | cons =>
      rw [hfields] at hbuild
      rw [resolveKey_of_buildComposite (by simp) hbuild]
      rfl

/-! ## Scalars -/

section Scalar

variable {store : List Char} (hparse : parse? store = none)

include hparse

/-- A scalar store type is found in the tables. -/
theorem resolveKey_named : c.resolveKey ⟨none, some store⟩ = scalarNamed? store := by
  rw [resolveKey_of_buildScalar (by simp) (by rw [buildComposite_scalar hparse]; rfl)]
  rfl

/-- A scalar host type under a scalar store type is found in the tables. -/
theorem resolveKey_pair {type : HostType} (hoption : ∀ inner, type ≠ .option inner)
    (henum : ∀ e, type ≠ .enum e) : c.resolveKey ⟨some type, some store⟩ =
      (scalarNamed? store).bind (scalarPair? type store) := by
  rw [resolveKey_of_buildScalar (by simpa using hoption)
    (by rw [buildComposite_scalar hparse]; rfl)]
  cases type with
  | enum e => exact absurd rfl (henum e)
  | _ => rfl

/-- An enumeration under a scalar store type has the mapping of its underlying type. -/
theorem resolveKey_enum {e : EnumType} {byStore : Mapping}
    (hstore : scalarNamed? store = some byStore) : c.resolveKey ⟨some (.enum e), some store⟩ =
      enumMapping? (.enum e) (c.resolveKey ⟨some e.underlying, some store⟩) := by
  rw [resolveKey_of_buildScalar (by simp) (by rw [buildComposite_scalar hparse]; rfl),
    buildScalar, hstore]
  rfl

end Scalar

/-- The store type of a built-in mapping is no struct or array. -/
theorem parse?_builtin (b : Builtin) : parse? b.mapping.storeType.toList = none := by
  cases b <;> rfl

/-- A built-in mapping is found by its store type. -/
theorem scalarNamed?_builtin (b : Builtin) :
    scalarNamed? b.mapping.storeType.toList = some b.mapping := by
  cases b <;> rfl

/-- A built-in mapping is found in any catalog. -/
theorem resolveKey_builtin (b : Builtin) :
    c.resolveKey (Key.of none (some b.mapping.storeType.toList)) = some b.mapping := by
  have hkey : Key.of none (some b.mapping.storeType.toList) =
      ⟨none, some b.mapping.storeType.toList⟩ := by cases b <;> rfl
  rw [hkey, resolveKey_named (parse?_builtin b), scalarNamed?_builtin]

end TypedSql.Catalog
