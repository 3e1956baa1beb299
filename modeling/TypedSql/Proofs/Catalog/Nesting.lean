import TypedSql.Catalog.Key
import TypedSql.Proofs.StoreType.Acceptance

/-!
# Nested keys

The keys that are looked up to build the mapping of another key, with one rule for each way in which
a key has parts. Their host types are parts of its host type, their store types are substrings of
its store type, and one of the two is smaller.
-/

namespace TypedSql

open StoreType Text

/-! ## Parts -/

/-- `Part t whole`: a host type is made directly of another one. -/
inductive HostType.Part : HostType → HostType → Prop
  | inner (t : HostType) : Part t (.option t)
  | underlying (e : EnumType) : Part e.underlying (.enum e)
  | element (l : ListType) : Part l.element (.list l)
  | member {r : RecordType} {m : Member} (h : m ∈ r.members) : Part m.type (.record r)

namespace Key

/-- `Nested k' k`: the mapping of `k` may be built from that of `k'`. -/
inductive Nested : Key → Key → Prop
  | inner (t : HostType) (store : Option (List Char)) :
      Nested ⟨some t, store⟩ ⟨some (.option t), store⟩
  | underlying (e : EnumType) (store : Option (List Char)) :
      Nested ⟨some e.underlying, store⟩ ⟨some (.enum e), store⟩
  | element (l : ListType) : Nested ⟨some l.element, none⟩ ⟨some (.list l), none⟩
  | member {r : RecordType} {m : Member} (h : m ∈ r.mappedMembers) :
      Nested ⟨some m.type, none⟩ ⟨some (.record r), none⟩
  | elementToken (list : Option ListType) {store element : List Char}
      (h : parse? store = some (.array element)) :
      Nested (Key.of (list.map (·.element)) (some element)) ⟨list.map .list, some store⟩
  | fieldToken (record : Option RecordType) {store : List Char} {tokens : List FieldToken}
      {token : FieldToken} (h : parse? store = some (.struct tokens)) (htoken : token ∈ tokens) :
      Nested (Key.ofField record token) ⟨record.map .record, some store⟩

namespace Nested

variable {k k' : Key}

/-- A nested key is smaller. -/
theorem size_lt (h : Nested k' k) : k'.size < k.size := by
  cases h with
  | inner => exact size_inner_lt
  | underlying => exact size_underlying_lt
  | element => exact size_listElement_lt
  | member hm => simpa [size, typeSize, storeSize] using size_mappedMember_lt _ hm
  | elementToken list hparse => exact size_element_lt hparse
  | fieldToken record hparse htoken => exact size_ofField_lt hparse _ htoken

/-- The host type of a nested key is a part of that of the key. -/
theorem part (h : Nested k' k) {t : HostType} (ht : k'.type = some t) :
    ∃ whole, k.type = some whole ∧ t.Part whole := by
  cases h with
  | inner =>
    cases ht
    exact ⟨_, rfl, .inner _⟩
  | underlying =>
    cases ht
    exact ⟨_, rfl, .underlying _⟩
  | element =>
    cases ht
    exact ⟨_, rfl, .element _⟩
  | member hm =>
    cases ht
    exact ⟨_, rfl, .member (List.mem_filter.mp hm).1⟩
  | elementToken list =>
    obtain ⟨l, rfl, rfl⟩ := Option.map_eq_some_iff.mp ht
    exact ⟨_, rfl, .element l⟩
  | fieldToken record =>
    obtain ⟨m, hm, rfl⟩ := Option.map_eq_some_iff.mp ht
    obtain ⟨r, rfl, hmember⟩ := Option.bind_eq_some_iff.mp hm
    exact ⟨_, rfl, .member (findNamed_mem hmember)⟩

/-- A key keeps no more of a store type than it is given. -/
theorem isInfix_of_store_of {type : Option HostType} {s kept : List Char}
    (h : (Key.of type (some s)).store = some kept) : kept <:+: s := by
  simp only [Key.of] at h
  split at h
  next => cases h
  next =>
    cases h
    exact isInfix_trim s

/-- The store type of a nested key is that of the key, for a part of the host type, or a shorter
substring of it. -/
theorem substring (h : Nested k' k) {s : List Char} (hs : k'.store = some s) :
    ∃ whole, k.store = some whole ∧
      (s = whole ∧ k'.type ≠ none ∨ s <:+: whole ∧ s.length < whole.length) := by
  cases h with
  | inner t store => exact ⟨s, hs, Or.inl ⟨rfl, by simp⟩⟩
  | underlying e store => exact ⟨s, hs, Or.inl ⟨rfl, by simp⟩⟩
  | element => cases hs
  | member => cases hs
  | @elementToken list store element hparse =>
    have hkept := isInfix_of_store_of hs
    refine ⟨store, rfl, Or.inr ⟨?_, ?_⟩⟩
    · exact hkept.trans (isInfix_of_parse? hparse element (List.mem_singleton_self element))
    · calc s.length ≤ element.length := hkept.length_le
        _ < (trim store).length := parse?_array_length hparse
        _ ≤ store.length := length_trim_le store
  | @fieldToken record store tokens token hparse htoken =>
    have hkept := isInfix_of_store_of hs
    refine ⟨store, rfl, Or.inr ⟨?_, ?_⟩⟩
    · exact hkept.trans (isInfix_of_parse? hparse token.type (List.mem_map_of_mem htoken))
    · calc s.length ≤ token.type.length := hkept.length_le
        _ < (trim store).length := parse?_struct_length hparse token htoken
        _ ≤ store.length := length_trim_le store

end Nested

end Key

end TypedSql
