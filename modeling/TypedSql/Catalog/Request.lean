import TypedSql.Catalog.Resolve

/-!
# Requests

The ways to ask a catalog with a memory for a mapping: by a host type and a store type, by either
alone, or by a value. One memory serves any number of requests in turn.
-/

namespace TypedSql

/-- A request to a catalog. -/
inductive Request where
  | pair (type : Option HostType) (store : Option String)
  | ofType (type : HostType)
  | ofStoreType (store : String)
  | ofValue (v : Value)

/-- The answer to a request. -/
structure Answer where
  mapping : Option Mapping
  /-- Which object the mapping is: its place in the memory. -/
  place : Option Nat
  /-- The memory after the answer. -/
  memory : Memo

/-- Both answers are the very same object. -/
def Answer.Same (a b : Answer) : Prop := a.place.isSome ∧ a.place = b.place

/-- The key by which a request is answered; none for a value that does not show its type. -/
def Request.key? : Request → Option Key
  | .pair type store => some (.of type (store.map String.toList))
  | .ofType type => some (.of (some type) none)
  | .ofStoreType store => some (.of none (some store.toList))
  | .ofValue v => match v.inferType with
    | .unknown => none
    | type => some (.of (some type) none)

namespace Catalog

/-- The answer for a host type and a store type, either of which may be missing. -/
def answerPair (c : Catalog) (type : Option HostType) (store : Option String) (memo : Memo) :
    Answer :=
  let (mapping, place, memory) := c.recall type store memo
  ⟨mapping, place, memory⟩

/-- The answer to a request, from what is in the memory. -/
def answer (c : Catalog) : Request → Memo → Answer
  | .pair type store, memo => c.answerPair type store memo
  | .ofType type, memo => c.answerPair (some type) none memo
  | .ofStoreType store, memo => c.answerPair none (some store) memo
  | .ofValue v, memo => match v.inferType with
    | .unknown => ⟨none, none, memo⟩
    | type => c.answerPair (some type) none memo

/-- The memory after requests in turn. -/
def memoryAfter (c : Catalog) (requests : List Request) : Memo :=
  requests.foldl (fun memo r => (c.answer r memo).memory) .empty

end Catalog

end TypedSql
