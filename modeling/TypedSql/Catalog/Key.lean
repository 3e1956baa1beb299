import TypedSql.HostType.Record
import TypedSql.StoreType.Composite

/-!
# Resolution keys

What a mapping is looked up by: a host type, a store type, or both. The parts of a key are smaller
keys, so looking up part by part comes to an end.
-/

namespace TypedSql

open Text

/-- What a mapping is looked up by. -/
structure Key where
  type : Option HostType
  store : Option (List Char)
deriving DecidableEq

namespace Key

/-- The size of an optional host type. -/
def typeSize : Option HostType → Nat
  | some t => t.size
  | none => 0

/-- The length of an optional store type. -/
def storeSize : Option (List Char) → Nat
  | some s => s.length
  | none => 0

/-- Host type and store type together. -/
def size (k : Key) : Nat := typeSize k.type + storeSize k.store

/-- The key for a host type and a store type, which is trimmed; a blank one counts as absent. -/
def of (type : Option HostType) : Option (List Char) → Key
  | some s => ⟨type, if (trim s).isEmpty then none else some (trim s)⟩
  | none => ⟨type, none⟩

/-- The key of a struct field: the type of the member that its name means, and its store type. -/
def ofField (record : Option RecordType) (token : StoreType.FieldToken) : Key :=
  of ((record.bind fun r => r.member? (String.ofList token.name)).map (·.type)) (some token.type)

/-- Trimming a store type makes no key larger. -/
theorem size_of_le (type : Option HostType) (store : Option (List Char)) :
    (of type store).size ≤ typeSize type + storeSize store := by
  cases store with
  | none => simp [of, size, storeSize]
  | some s =>
    have h := length_trim_le s
    by_cases hs : (trim s).isEmpty <;> simp [of, size, storeSize, hs, h]

/-- The field of a struct is smaller than the struct. -/
theorem size_ofField_lt {record : Option RecordType} {s : List Char}
    {tokens : List StoreType.FieldToken} (h : StoreType.parse? s = some (.struct tokens)) :
    ∀ token ∈ tokens,
      (ofField record token).size < (Key.mk (record.map .record) (some s)).size := by
  intro token hm
  have hlen := StoreType.parse?_struct_length h token hm
  have htrim := length_trim_le s
  refine Nat.lt_of_le_of_lt (size_of_le ..) ?_
  cases record with
  | none =>
    simp only [Option.bind_none, Option.map_none, typeSize, storeSize, size]
    omega
  | some r =>
    cases hmem : r.member? (String.ofList token.name) with
    | none =>
      simp only [Option.bind_some, hmem, Option.map_none, Option.map_some, typeSize, storeSize,
        size]
      omega
    | some m =>
      have := HostType.size_member_lt hmem
      simp only [Option.bind_some, hmem, Option.map_some, typeSize, storeSize, size]
      omega

/-- The element of an array is smaller than the array. -/
theorem size_element_lt {list : Option ListType} {s element : List Char}
    (h : StoreType.parse? s = some (.array element)) :
    (of (list.map (·.element)) (some element)).size < (Key.mk (list.map .list) (some s)).size := by
  have hlen := StoreType.parse?_array_length h
  have htrim := length_trim_le s
  refine Nat.lt_of_le_of_lt (size_of_le ..) ?_
  cases list with
  | none =>
    simp only [Option.map_none, typeSize, storeSize, size]
    omega
  | some l =>
    obtain ⟨e, shape⟩ := l
    simp only [Option.map_some, typeSize, storeSize, size, HostType.size]
    omega

/-- The mapped members of a record are smaller than the record. -/
theorem size_mappedMember_lt {record : RecordType} :
    ∀ member ∈ record.mappedMembers,
      member.type.size < (Key.mk (some (.record record)) none).size := by
  intro member h
  obtain ⟨name, composite, members⟩ := record
  have hle : member.type.size ≤ HostType.sizeMembers members :=
    HostType.size_le_sizeMembers (List.mem_filter.1 h).1
  simp only [size, typeSize, storeSize, HostType.size]
  omega

/-- The element of a sequence is smaller than the sequence. -/
theorem size_listElement_lt {list : ListType} :
    (Key.mk (some list.element) none).size < (Key.mk (some (.list list)) none).size := by
  obtain ⟨element, shape⟩ := list
  simp [size, typeSize, storeSize, HostType.size]

/-- The underlying type of an enumeration is smaller than the enumeration. -/
theorem size_underlying_lt {e : EnumType} {store : Option (List Char)} :
    (Key.mk (some e.underlying) store).size < (Key.mk (some (.enum e)) store).size := by
  obtain ⟨name, underlying, variants⟩ := e
  simp only [size, typeSize, HostType.size]
  omega

/-- The type under an option is smaller than the option. -/
theorem size_inner_lt {inner : HostType} {store : Option (List Char)} :
    (Key.mk (some inner) store).size < (Key.mk (some (.option inner)) store).size := by
  simp only [size, typeSize, HostType.size]
  omega

end Key

end TypedSql
