import TypedSql.Catalog.Build

/-!
# Resolving mappings

The plain lookup of the mapping of a key, and the lookup with a memory of the keys met so far,
nested ones included. The memory answers a key that it knows and is otherwise invisible.
-/

namespace TypedSql

/-- The source of mappings, under some settings. -/
structure Catalog where
  settings : Settings
deriving DecidableEq, Repr, Inhabited

/-- The keys resolved so far with their results, latest first. -/
structure Memo where
  entries : List (Key × Option Mapping)

namespace Memo

instance : Inhabited Memo := ⟨⟨[]⟩⟩

/-- Nothing resolved yet. -/
def empty : Memo := ⟨[]⟩

/-- The number of keys resolved so far. -/
def size (memo : Memo) : Nat := memo.entries.length

/-- The result known for a key. -/
def find? (memo : Memo) (k : Key) : Option (Option Mapping) :=
  (memo.entries.find? fun entry => entry.1 = k).map Prod.snd

/-- The place of a key in order of resolution, if it has a mapping. -/
def slot? (memo : Memo) (k : Key) : Option Nat :=
  let found := memo.entries.dropWhile fun entry => entry.1 ≠ k
  match found with
  | (_, some _) :: earlier => some earlier.length
  | _ => none

/-- The memory with one more key. -/
def insert (memo : Memo) (k : Key) (result : Option Mapping) : Memo := ⟨(k, result) :: memo.entries⟩

end Memo

namespace Catalog

/-- The mapping of a key. -/
def resolveKey (c : Catalog) (k : Key) : Option Mapping :=
  Id.run (build c.settings k fun k' _ => pure (c.resolveKey k'))
termination_by k.size

/-- The mapping of a key, looked up and recorded in a memory. -/
def recallKey (c : Catalog) (k : Key) : StateM Memo (Option Mapping) := do
  match (← get).find? k with
  | some result => return result
  | none =>
    let result ← build c.settings k fun k' _ => c.recallKey k'
    modify fun memo => memo.insert k result
    return result
termination_by k.size

/-- The mapping for a host type and a store type, either of which may be missing. -/
def resolve (c : Catalog) (type : Option HostType) (store : Option String) : Option Mapping :=
  c.resolveKey (Key.of type (store.map String.toList))

/-- The mapping for a host type and a store type, its place in the memory, and the memory after. -/
def «recall» (c : Catalog) (type : Option HostType) (store : Option String) (memo : Memo) :
    Option Mapping × Option Nat × Memo :=
  let k := Key.of type (store.map String.toList)
  let (found, memo) := (c.recallKey k).run memo
  (found, memo.slot? k, memo)

/-- The default mapping of a host type. -/
def resolveType (c : Catalog) (type : HostType) : Option Mapping := c.resolve (some type) none

/-- The mapping of a store type. -/
def resolveStoreType (c : Catalog) (store : String) : Option Mapping := c.resolve none (some store)

/-- The default mapping of a value that shows its type. -/
def resolveValue (c : Catalog) (v : Value) : Option Mapping :=
  match v.inferType with
  | .unknown => none
  | type => c.resolveType type

end Catalog

end TypedSql
