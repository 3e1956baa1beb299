import Mathlib.Logic.Function.Iterate
import TypedSql.Proofs.Catalog.Alone

/-!
# Optional types

An optional type is mapped as the type inside, for every store type, and its mapping differs in
nothing but that values may be absent. The facets are written anew on the way, into the store type
that they were read from.
-/

namespace TypedSql

/-- The same mapping for values that may be absent: all else is as it was, the other facets and the
store type included. -/
def Mapping.asNullable (m : Mapping) : Mapping :=
  { m with facets := { m.facets with nullable := true } }

namespace Catalog

variable {c : Catalog} {k : Key} {m : Mapping}

/-- Writing the facets of a mapping anew leaves its store type as it is. -/
theorem nullable_eq_asNullable (h : Resolves c k m) : nullable m = m.asNullable := by
  have hstore : (nullable m).storeType = m.storeType := storeType_nullable h
  calc
    nullable m = { m.asNullable with storeType := (nullable m).storeType } := rfl
    _ = m.asNullable := by rw [hstore]; rfl

/-- The key for an optional type has the store type of the key for the type inside. -/
theorem keyOf_option (t : HostType) (store : Option (List Char)) :
    Key.of (some (.option t)) store = ⟨some (.option t), (Key.of (some t) store).store⟩ := by
  cases store <;> rfl

/-- An optional type is mapped as the type inside. -/
theorem resolve_option (c : Catalog) (t : HostType) (store : Option String) :
    c.resolve (some (.option t)) store = (c.resolve (some t) store).map Mapping.asNullable := by
  have hinner : Key.of (some t) (store.map String.toList) =
      ⟨some t, (Key.of (some t) (store.map String.toList)).store⟩ := by cases store <;> rfl
  rw [resolve, resolve, keyOf_option, resolveKey_option, ← hinner]
  cases hm : c.resolveKey (Key.of (some t) (store.map String.toList)) with
  | none => rfl
  | some m => exact congrArg some (nullable_eq_asNullable (resolves_of_resolveKey hm))

/-- A type inside any number of options, at least one, is mapped as the type inside, and differs in
nothing but being nullable. -/
theorem resolve_options (c : Catalog) (t : HostType) (store : Option String) (n : Nat) :
    c.resolve (some (HostType.option^[n + 1] t)) store =
      (c.resolve (some t) store).map Mapping.asNullable := by
  induction n with
  | zero => exact resolve_option c t store
  | succ n ih =>
    rw [Function.iterate_succ_apply', resolve_option, ih, Option.map_map]
    rfl

end Catalog

end TypedSql
