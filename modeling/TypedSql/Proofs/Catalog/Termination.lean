import TypedSql.Proofs.Catalog.Memory

/-!
# Lookups come to an end

Building the mapping of a key asks for nested keys only, whatever has been found before. So a lookup
that stops as soon as it is asked for a key whose mapping is still being built, or as it is nested
deeper than the size of its key, never stops: it finds what the lookup with a memory finds, from
any memory.
-/

namespace TypedSql

/-- Why a lookup stops. -/
inductive Stall where
  /-- The mapping of the key is still being built. -/
  | reentered (k : Key)
  /-- The lookup is nested too deep. -/
  | tooDeep
deriving DecidableEq

namespace Catalog

variable {c : Catalog} {k k' : Key}

/-! ## Nested lookups -/

/-- The keys that are asked for in order to build the mapping of a key, when nested lookups find
what is given. -/
def asked (settings : Settings) (answers : Key → Option Mapping) (k : Key) : List Key :=
  (build settings k fun k' _ => (⟨answers k', [k']⟩ : Traced (Option Mapping))).keys

/-- A computation asks for keys of some kind only. -/
def asking (P : Key → Prop) : Simulation Traced Id where
  Rel x _ := ∀ k ∈ x.keys, P k
  pure _ := List.forall_mem_nil _
  bind hx hf := List.forall_mem_append.mpr ⟨hx, hf _⟩

/-- Building asks for nested keys only. -/
theorem nested_of_mem_asked {settings : Settings} {answers : Key → Option Mapping}
    (h : k' ∈ asked settings answers k) : k'.Nested k := by
  have hbuild : (asking (·.Nested k)).Rel
      (build settings k fun k' _ => (⟨answers k', [k']⟩ : Traced (Option Mapping)))
      (build settings k fun k' _ => answers k') :=
    (asking _).build fun _ _ hnested => List.forall_mem_singleton.mpr hnested
  exact hbuild k' h

/-! ## A lookup that watches itself -/

/-- The lookup with a memory, that stops when it is nested deeper than allowed or asked for one of
the keys whose mappings are being built. -/
def recallWatched (c : Catalog) :
    (depth : Nat) → (building : List Key) → Key → StateT Memo (Except Stall) (Option Mapping)
  | 0, _, _ => throw .tooDeep
  | depth + 1, building, k => do
    if k ∈ building then throw (.reentered k)
    match (← get).find? k with
    | some result => return result
    | none =>
      let result ← build c.settings k fun k' _ => c.recallWatched depth (k :: building) k'
      modify fun memo => memo.insert k result
      return result

/-- A computation that never stops does what the one that does not watch itself does. -/
def watching : Simulation (StateT Memo (Except Stall)) (StateM Memo) where
  Rel x y := ∀ memo, x.run memo = .ok (y.run memo)
  pure _ _ := rfl
  bind := by
    intro α β x y f g hx hf memo
    rw [StateT.run_bind, hx memo]
    exact hf _ _

/-- A lookup never stops that is allowed to nest as deep as its key is large, when only larger keys
are being built. -/
theorem run_recallWatched {depth : Nat} {building : List Key} (hdepth : k.size < depth)
    (hbuilding : ∀ b ∈ building, k.size < b.size) :
    watching.Rel (c.recallWatched depth building k) (c.recallKey k) := by
  induction depth generalizing building k with
  | zero => exact absurd hdepth (Nat.not_lt_zero _)
  | succ depth ih =>
    have hnew : k ∉ building := fun hk => absurd (hbuilding k hk) (Nat.lt_irrefl _)
    -- a nested key is smaller than the key, so than all that are being built
    have hbuild : watching.Rel
        (build c.settings k fun k' _ => c.recallWatched depth (k :: building) k')
        (build c.settings k fun k' _ => c.recallKey k') := by
      apply watching.build
      intro k' hsize _
      refine ih (by omega) (List.forall_mem_cons.mpr ⟨hsize, fun b hb => ?_⟩)
      exact Nat.lt_trans hsize (hbuilding b hb)
    intro memo
    rw [recallWatched, if_neg hnew]
    cases hfind : memo.find? k with
    | some result =>
      rw [run_recallKey_known hfind]
      simp only [StateT.run_bind, StateT.run_get, pure_bind, hfind]
      rfl
    | none =>
      cases hrun : (build c.settings k fun k' _ => c.recallKey k').run memo with
      | mk result after =>
        have hwatched := hbuild memo
        rw [hrun] at hwatched
        rw [run_recallKey_new hfind hrun]
        simp only [StateT.run_bind, StateT.run_get, pure_bind, hfind, hwatched]
        rfl

/-- Resolution comes to an end and never asks for a key whose mapping is being built. The size of a
key is that of its host type and the length of its trimmed store type. Whatever nested lookups find,
building asks for smaller keys only: for a part of the host type if for any, and for the same store
type or a shorter substring of it. So a lookup that stops where it would ask for a key again, or
nest deeper than the size of its key, does what the lookup with a memory does, from any memory. -/
theorem resolution_terminates (c : Catalog) :
    (∀ type store,
      (Key.of type (some store)).size = Key.typeSize type + (Text.trim store).length) ∧
    (∀ answers k, ∀ k' ∈ asked c.settings answers k, k'.size < k.size ∧
      (∀ t, k'.type = some t → ∃ whole, k.type = some whole ∧ t.Part whole) ∧
      ∀ s, k'.store = some s → ∃ whole, k.store = some whole ∧
        (s = whole ∧ k'.type ≠ none ∨ s <:+: whole ∧ s.length < whole.length)) ∧
    ∀ k memo, (c.recallWatched (k.size + 1) [] k).run memo = .ok ((c.recallKey k).run memo) := by
  refine ⟨fun type store => ?_, fun answers k k' hk' => ?_, fun k memo => ?_⟩
  · by_cases hblank : Text.trim store = [] <;> simp [Key.of, Key.size, Key.storeSize, hblank]
  · have hnested := nested_of_mem_asked hk'
    exact ⟨hnested.size_lt, fun _ => hnested.part, fun _ => hnested.substring⟩
  · exact run_recallWatched (Nat.lt_succ_self _) (List.forall_mem_nil _) memo

end Catalog

end TypedSql
