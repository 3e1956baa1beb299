import TypedSql.Proofs.Catalog.Lookup
import TypedSql.Proofs.Catalog.Nesting

/-!
# Building with other lookups

How a mapping is built does not depend on the monad of the lookups: lookups that are related at the
nested keys give related results, for every relation that sequencing respects. A relation is chosen
by what is to be shown of a lookup with a memory or with a log.
-/

namespace TypedSql.Catalog

/-- A relation between the computations of two monads that sequencing respects. -/
structure Simulation (m n : Type → Type) [Monad m] [Monad n] where
  Rel : {α : Type} → m α → n α → Prop
  pure : ∀ {α : Type} (a : α), Rel (pure a) (pure a)
  bind : ∀ {α β : Type} {x : m α} {y : n α} {f : α → m β} {g : α → n β}, Rel x y →
    (∀ a, Rel (f a) (g a)) → Rel (x >>= f) (y >>= g)

namespace Simulation

variable {m n : Type → Type} [Monad m] [Monad n] (S : Simulation m n) {settings : Settings}

/-- Computations that equal related ones are related. -/
theorem congr {α : Type} {x x' : m α} {y y' : n α} (hx : x = x') (hy : y = y')
    (h : S.Rel x' y') : S.Rel x y := by
  rw [hx, hy]
  exact h

/-- Lookups that are related at the keys that are asked for. -/
def Lookups (asked : Key → Prop) {size : Nat} (lookup : Lookup m size) (lookup' : Lookup n size) :
    Prop :=
  ∀ k h, asked k → S.Rel (lookup k h) (lookup' k h)

section Parts

variable {size : Nat} {asked : Key → Prop} {lookup : Lookup m size} {lookup' : Lookup n size}
  (hlookup : S.Lookups asked lookup lookup')

include hlookup

/-- The fields of a struct store type are related. -/
theorem fieldsOfTokens (record : Option RecordType) (tokens : List StoreType.FieldToken)
    (small : ∀ t ∈ tokens, (Key.ofField record t).size < size)
    (hasked : ∀ t ∈ tokens, asked (Key.ofField record t)) :
    S.Rel (fieldsOfTokens record lookup tokens small)
      (fieldsOfTokens record lookup' tokens small) := by
  induction tokens with
  | nil => exact S.pure _
  | cons token rest ih =>
    obtain ⟨htoken, hrest⟩ := List.forall_mem_cons.mp hasked
    rw [Catalog.fieldsOfTokens, Catalog.fieldsOfTokens]
    apply S.bind (hlookup _ _ htoken)
    rintro (_ | mapping)
    · exact S.pure _
    · apply S.bind (ih _ hrest)
      exact fun _ => S.pure _

/-- The fields of a composite record are related. -/
theorem fieldsOfMembers (members : List Member) (small : ∀ t ∈ members, t.type.size < size)
    (hasked : ∀ t ∈ members, asked ⟨some t.type, none⟩) :
    S.Rel (fieldsOfMembers lookup members small) (fieldsOfMembers lookup' members small) := by
  induction members with
  | nil => exact S.pure _
  | cons member rest ih =>
    obtain ⟨hmember, hrest⟩ := List.forall_mem_cons.mp hasked
    rw [Catalog.fieldsOfMembers, Catalog.fieldsOfMembers]
    apply S.bind (hlookup _ _ hmember)
    intro found
    apply S.bind (ih _ hrest)
    exact fun _ => S.pure _

end Parts

/-- A struct store type is built alike. -/
theorem structOfTokens {record : Option RecordType} {store : List Char}
    {tokens : List StoreType.FieldToken}
    (parsed : StoreType.parse? store = some (.struct tokens))
    {lookup : Lookup m (Key.mk (record.map .record) (some store)).size}
    {lookup' : Lookup n (Key.mk (record.map .record) (some store)).size}
    (hlookup : S.Lookups (Key.Nested · ⟨record.map .record, some store⟩) lookup lookup') :
    S.Rel (structOfTokens record store tokens parsed lookup)
      (structOfTokens record store tokens parsed lookup') := by
  rw [Catalog.structOfTokens, Catalog.structOfTokens]
  apply S.bind (S.fieldsOfTokens hlookup record tokens _ fun _ => .fieldToken record parsed)
  intro fields
  cases record <;> exact S.pure _

/-- An array store type is built alike. -/
theorem arrayOfToken {list : Option ListType} {store element : List Char}
    (parsed : StoreType.parse? store = some (.array element))
    {lookup : Lookup m (Key.mk (list.map .list) (some store)).size}
    {lookup' : Lookup n (Key.mk (list.map .list) (some store)).size}
    (hlookup : S.Lookups (Key.Nested · ⟨list.map .list, some store⟩) lookup lookup') :
    S.Rel (arrayOfToken settings list store element parsed lookup)
      (arrayOfToken settings list store element parsed lookup') := by
  rw [Catalog.arrayOfToken, Catalog.arrayOfToken]
  apply S.bind (hlookup _ _ (.elementToken list parsed))
  exact fun _ => S.pure _

/-- What is built for a struct store type is related. -/
theorem buildComposite_struct {type : Option HostType} {store : List Char}
    {tokens : List StoreType.FieldToken} (hparse : StoreType.parse? store = some (.struct tokens))
    {lookup : Lookup m (Key.mk type (some store)).size}
    {lookup' : Lookup n (Key.mk type (some store)).size}
    (hlookup : S.Lookups (Key.Nested · ⟨type, some store⟩) lookup lookup') :
    S.Rel (buildComposite settings ⟨type, some store⟩ lookup)
      (buildComposite settings ⟨type, some store⟩ lookup') := by
  cases type with
  | none =>
    exact S.congr (Catalog.buildComposite_struct none hparse lookup)
      (Catalog.buildComposite_struct none hparse lookup')
      (S.structOfTokens hparse hlookup)
  | some type =>
    by_cases hrecord : ∃ r, type = .record r
    · obtain ⟨r, rfl⟩ := hrecord
      exact S.congr (Catalog.buildComposite_struct (some r) hparse lookup)
        (Catalog.buildComposite_struct (some r) hparse lookup')
        (S.structOfTokens hparse hlookup)
    · have hne := not_exists.mp hrecord
      rw [buildComposite_struct_of_ne hparse hne, buildComposite_struct_of_ne hparse hne]
      exact S.pure none

/-- What is built for an array store type is related. -/
theorem buildComposite_array {type : Option HostType} {store element : List Char}
    (hparse : StoreType.parse? store = some (.array element))
    {lookup : Lookup m (Key.mk type (some store)).size}
    {lookup' : Lookup n (Key.mk type (some store)).size}
    (hlookup : S.Lookups (Key.Nested · ⟨type, some store⟩) lookup lookup') :
    S.Rel (buildComposite settings ⟨type, some store⟩ lookup)
      (buildComposite settings ⟨type, some store⟩ lookup') := by
  cases type with
  | none =>
    exact S.congr (Catalog.buildComposite_array none hparse lookup)
      (Catalog.buildComposite_array none hparse lookup') (S.arrayOfToken hparse hlookup)
  | some type =>
    by_cases hlist : ∃ l, type = .list l
    · obtain ⟨l, rfl⟩ := hlist
      exact S.congr (Catalog.buildComposite_array (some l) hparse lookup)
        (Catalog.buildComposite_array (some l) hparse lookup')
        (S.arrayOfToken hparse hlookup)
    · have hne := not_exists.mp hlist
      rw [buildComposite_array_of_ne hparse hne, buildComposite_array_of_ne hparse hne]
      exact S.pure none

/-- What is built for a struct or an array is related. -/
theorem buildComposite {k : Key} {lookup : Lookup m k.size} {lookup' : Lookup n k.size}
    (hlookup : S.Lookups (Key.Nested · k) lookup lookup') :
    S.Rel (buildComposite settings k lookup) (buildComposite settings k lookup') := by
  obtain ⟨type, store⟩ := k
  cases store with
  | none =>
    cases type with
    | none => exact S.pure none
    | some type =>
      cases type with
      | record r =>
        rw [Catalog.buildComposite, Catalog.buildComposite]
        split
        · apply S.bind (S.fieldsOfMembers hlookup r.mappedMembers _ fun _ => .member)
          exact fun _ => S.pure _
        · exact S.pure none
      | list l =>
        rw [Catalog.buildComposite, Catalog.buildComposite]
        split
        · exact S.pure none
        · apply S.bind (hlookup _ _ (.element l))
          exact fun _ => S.pure _
      | _ => exact S.pure none
  | some store =>
    cases hparse : StoreType.parse? store with
    | none =>
      rw [buildComposite_scalar hparse, buildComposite_scalar hparse]
      exact S.pure none
    | some composite =>
      cases composite with
      | struct tokens => exact S.buildComposite_struct hparse hlookup
      | array element => exact S.buildComposite_array hparse hlookup

/-- What is built for a scalar is related. -/
theorem buildScalar {k : Key} {lookup : Lookup m k.size} {lookup' : Lookup n k.size}
    (hlookup : S.Lookups (Key.Nested · k) lookup lookup') :
    S.Rel (buildScalar k lookup) (buildScalar k lookup') := by
  obtain ⟨type, store⟩ := k
  cases type with
  | none => cases store <;> exact S.pure _
  | some type =>
    cases type with
    | enum e =>
      have henum : S.Rel (buildEnum e store lookup) (buildEnum e store lookup') := by
        apply S.bind (hlookup _ _ (.underlying e store))
        exact fun _ => S.pure _
      cases store with
      | none => exact henum
      | some store =>
        rw [Catalog.buildScalar, Catalog.buildScalar]
        cases scalarNamed? store with
        | none => exact S.pure none
        | some => exact henum
    | _ => cases store <;> exact S.pure _

/-- Lookups that are related at the nested keys build related mappings. -/
theorem build {k : Key} {lookup : Lookup m k.size} {lookup' : Lookup n k.size}
    (hlookup : S.Lookups (Key.Nested · k) lookup lookup') :
    S.Rel (build settings k lookup) (build settings k lookup') := by
  rcases k with ⟨_ | (_ | inner | _ | _ | _ | _), store⟩
  case some.option =>
    apply S.bind (hlookup _ _ (.inner inner store))
    exact fun _ => S.pure _
  -- all keys but those of optional types
  all_goals
    apply S.bind (S.buildComposite hlookup)
    rintro (_ | mapping)
    · exact S.buildScalar hlookup
    · exact S.pure _

end Simulation

end TypedSql.Catalog
