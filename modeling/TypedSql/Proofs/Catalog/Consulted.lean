import TypedSql.Proofs.Catalog.Simulation

/-!
# Keys that a lookup comes to

The keys that are looked up in the course of building the mapping of a key, as far as building
goes, and those that are reached from them in turn. Each is smaller than the key it is looked up
for.
-/

namespace TypedSql

/-- A result with the keys that were looked up for it, in order. -/
structure Traced (α : Type) where
  result : α
  keys : List Key

instance : Monad Traced where
  pure a := ⟨a, []⟩
  bind x f := ⟨(f x.result).result, x.keys ++ (f x.result).keys⟩

namespace Catalog

/-- The lookup of a key, and the key. -/
def traced (c : Catalog) (n : Nat) : Lookup Traced n := fun k _ => ⟨c.resolveKey k, [k]⟩

/-- The keys that are looked up to build the mapping of a key. -/
def consulted (c : Catalog) (k : Key) : List Key := (build c.settings k (c.traced k.size)).keys

/-- `Reaches c k k'`: looking up a key comes to another one, at once or in the course of building
the mappings of keys on the way. -/
inductive Reaches (c : Catalog) : Key → Key → Prop
  | refl (k : Key) : Reaches c k k
  | step {k k' k'' : Key} (h : k' ∈ c.consulted k) (hreach : Reaches c k' k'') : Reaches c k k''

variable {c : Catalog}

/-- A traced computation has the result of the plain one, and looks up keys below a size. -/
def tracing (n : Nat) : Simulation Traced Id where
  Rel x y := x.result = Id.run y ∧ ∀ k ∈ x.keys, k.size < n
  pure _ := ⟨rfl, fun _ h => absurd h List.not_mem_nil⟩
  bind := by
    rintro α β x y f g ⟨rfl, hkeys⟩ hnext
    obtain ⟨hresult, hmore⟩ := hnext x.result
    refine ⟨hresult, fun k hk => ?_⟩
    rcases List.mem_append.mp hk with hk | hk
    · exact hkeys k hk
    · exact hmore k hk

/-- What is built with traced lookups is what is built with plain ones. -/
theorem tracing_build (c : Catalog) (k : Key) :
    (tracing k.size).Rel (build c.settings k (c.traced k.size))
      (build c.settings k (plain c k.size)) := by
  apply (tracing k.size).build
  intro k' hk' _
  exact ⟨rfl, fun _ h => List.mem_singleton.mp h ▸ hk'⟩

/-- The mapping of a key is built with traced lookups. -/
theorem result_build (c : Catalog) (k : Key) :
    (build c.settings k (c.traced k.size)).result = c.resolveKey k :=
  (tracing_build c k).1.trans (resolveKey_eq c k).symm

/-- The keys that are looked up for a key are smaller. -/
theorem size_lt_of_mem_consulted {k k' : Key} (h : k' ∈ c.consulted k) : k'.size < k.size :=
  (tracing_build c k).2 k' h

/-- The keys that are reached from a key are no larger. -/
theorem Reaches.size_le {k k' : Key} (h : c.Reaches k k') : k'.size ≤ k.size := by
  induction h with
  | refl => exact Nat.le_refl _
  | step hmem _ ih => exact Nat.le_trans ih (Nat.le_of_lt (size_lt_of_mem_consulted hmem))

/-- What is reached from a key is the key itself or reached from one that is looked up for it. -/
theorem reaches_iff {k k' : Key} :
    c.Reaches k k' ↔ k' = k ∨ ∃ k₀ ∈ c.consulted k, c.Reaches k₀ k' := by
  constructor
  · rintro (_ | ⟨hmem, h⟩)
    · exact Or.inl rfl
    · exact Or.inr ⟨_, hmem, h⟩
  · rintro (rfl | ⟨k₀, hmem, h⟩)
    · exact .refl _
    · exact .step hmem h

end Catalog

end TypedSql
