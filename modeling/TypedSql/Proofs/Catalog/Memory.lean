import Mathlib.Data.Set.Card
import TypedSql.Catalog.Request
import TypedSql.Proofs.Catalog.Consulted

/-!
# The memory of a catalog

A memory that lookups have filled holds the result of every key in it, each key once, and with a
key all that are reached from it. Lookups keep this and only ever add to the memory, so that they
answer what a catalog without a memory answers, whatever was asked before.
-/

namespace TypedSql

namespace Memo

variable {c : Catalog} {memo : Memo} {k : Key}

/-- The keys in a memory, latest first. -/
def keys (memo : Memo) : List Key := memo.entries.map Prod.fst

/-- A memory that lookups have filled. -/
structure Coherent (c : Catalog) (memo : Memo) : Prop where
  results : ∀ entry ∈ memo.entries, entry.2 = c.resolveKey entry.1
  distinct : memo.keys.Nodup
  closed : ∀ k ∈ memo.keys, ∀ k' ∈ c.consulted k, k' ∈ memo.keys

/-- An empty memory is coherent. -/
theorem coherent_empty (c : Catalog) : Coherent c .empty :=
  ⟨fun _ h => absurd h List.not_mem_nil, List.nodup_nil, fun _ h => absurd h List.not_mem_nil⟩

/-- A key that is found has its result. -/
theorem Coherent.find?_some (hcoherent : Coherent c memo) {result : Option Mapping}
    (h : memo.find? k = some result) : result = c.resolveKey k ∧ k ∈ memo.keys := by
  obtain ⟨entry, hentry, rfl⟩ := Option.map_eq_some_iff.mp h
  have hkey : entry.1 = k := by simpa using List.find?_some hentry
  have hmem := List.mem_of_find?_eq_some hentry
  exact ⟨hkey ▸ hcoherent.results entry hmem, hkey ▸ List.mem_map_of_mem hmem⟩

/-- A key that is not found is not in the memory. -/
theorem not_mem_keys_of_find?_none (h : memo.find? k = none) : k ∉ memo.keys := by
  intro hmem
  obtain ⟨entry, hentry, rfl⟩ := List.mem_map.mp hmem
  simpa using List.find?_eq_none.mp (Option.map_eq_none_iff.mp h) entry hentry

/-- All keys that are reached from a key in the memory are in the memory. -/
theorem Coherent.mem_of_reaches (hcoherent : Coherent c memo) {k' : Key} (h : c.Reaches k k')
    (hk : k ∈ memo.keys) : k' ∈ memo.keys := by
  induction h with
  | refl => exact hk
  | step hmem _ ih => exact ih (hcoherent.closed _ hk _ hmem)

/-! ## Growing -/

/-- `Grows c memo keys after`: a memory after some keys have been looked up. -/
structure Grows (c : Catalog) (memo : Memo) (keys : List Key) (after : Memo) : Prop where
  coherent : after.Coherent c
  keeps : memo.entries <:+ after.entries
  mem_keys : ∀ k, k ∈ after.keys ↔ k ∈ memo.keys ∨ ∃ k₀ ∈ keys, c.Reaches k₀ k

/-- Without lookups a memory stays the same. -/
theorem Grows.refl (h : memo.Coherent c) : Grows c memo [] memo :=
  ⟨h, List.suffix_refl _, fun _ => by simp⟩

/-- Lookups in a row. -/
theorem Grows.trans {between after : Memo} {keys more : List Key}
    (h : Grows c memo keys between) (h' : Grows c between more after) :
    Grows c memo (keys ++ more) after := by
  refine ⟨h'.coherent, h.keeps.trans h'.keeps, fun k => ?_⟩
  rw [h'.mem_keys, h.mem_keys, or_assoc]
  simp only [List.mem_append, or_and_right, exists_or]

/-- The lookup of a key in the memory leaves the memory the same. -/
theorem Grows.known (h : memo.Coherent c) (hk : k ∈ memo.keys) : Grows c memo [k] memo := by
  refine ⟨h, List.suffix_refl _, fun k' => ⟨Or.inl, ?_⟩⟩
  rintro (hk' | ⟨k₀, hk₀, hreach⟩)
  · exact hk'
  · obtain rfl := List.mem_singleton.mp hk₀
    exact h.mem_of_reaches hreach hk

/-- A new key is recorded after those that are looked up for it. -/
theorem Grows.record {after : Memo} (h : Grows c memo (c.consulted k) after)
    (hk : k ∉ memo.keys) : Grows c memo [k] (after.insert k (c.resolveKey k)) := by
  -- all that building comes to is smaller than the key, so nothing has recorded it meanwhile
  have hnew : k ∉ after.keys := by
    intro hmem
    rcases (h.mem_keys k).mp hmem with hold | ⟨k₀, hk₀, hreach⟩
    · exact hk hold
    · exact absurd hreach.size_le (Nat.not_le.mpr (Catalog.size_lt_of_mem_consulted hk₀))
  refine ⟨⟨?_, ?_, ?_⟩, h.keeps.trans (List.suffix_cons _ _), fun k' => ?_⟩
  · exact List.forall_mem_cons.mpr ⟨rfl, h.coherent.results⟩
  · exact List.nodup_cons.mpr ⟨hnew, h.coherent.distinct⟩
  · intro k₁ hk₁ k₂ hk₂
    apply List.mem_cons_of_mem
    rcases List.mem_cons.mp hk₁ with rfl | hk₁
    · exact (h.mem_keys k₂).mpr (Or.inr ⟨k₂, hk₂, .refl k₂⟩)
    · exact h.coherent.closed k₁ hk₁ k₂ hk₂
  · have hkeys : k' ∈ (after.insert k (c.resolveKey k)).keys ↔ k' = k ∨ k' ∈ after.keys :=
      List.mem_cons
    rw [hkeys, h.mem_keys]
    simp only [List.mem_singleton, exists_eq_left, Catalog.reaches_iff (k := k)]
    exact or_left_comm

end Memo

namespace Catalog

open Memo

variable {c : Catalog}

/-- A computation with a memory has the result of the traced one and grows by its keys. -/
def recalling (c : Catalog) : Simulation (StateM Memo) Traced where
  Rel x y := ∀ memo, memo.Coherent c →
    (x.run memo).1 = y.result ∧ Grows c memo y.keys (x.run memo).2
  pure _ _ h := ⟨rfl, .refl h⟩
  bind := by
    intro α β x y f g hx hf memo hmemo
    obtain ⟨hresult, hgrows⟩ := hx memo hmemo
    have hrun : (x >>= f).run memo = (f y.result).run (x.run memo).2 := by
      rw [← hresult]
      rfl
    rw [hrun]
    obtain ⟨hresult', hgrows'⟩ := hf y.result _ hgrows.coherent
    exact ⟨hresult', hgrows.trans hgrows'⟩

/-- The lookup of a key in the memory. -/
theorem run_recallKey_known {memo : Memo} {k : Key} {result : Option Mapping}
    (h : memo.find? k = some result) : (c.recallKey k).run memo = (result, memo) := by
  rw [recallKey]
  simp only [StateT.run_bind, StateT.run_get, pure_bind, h]
  rfl

/-- The lookup of a new key, which is recorded once its mapping is built. -/
theorem run_recallKey_new {memo after : Memo} {k : Key} {result : Option Mapping}
    (h : memo.find? k = none)
    (hbuild : (build c.settings k fun k' _ => c.recallKey k').run memo = (result, after)) :
    (c.recallKey k).run memo = (result, after.insert k result) := by
  rw [recallKey]
  simp only [StateT.run_bind, StateT.run_get, pure_bind, h, hbuild]
  rfl

/-- A lookup with a memory has the result of the plain one, and the memory grows by the key. -/
theorem recalling_recallKey (c : Catalog) (k : Key) :
    (recalling c).Rel (c.recallKey k) ⟨c.resolveKey k, [k]⟩ := by
  induction hsize : k.size using Nat.strongRecOn generalizing k with
  | ind n ih =>
    subst hsize
    intro memo hmemo
    cases hfind : memo.find? k with
    | some result =>
      obtain ⟨hresult, hk⟩ := hmemo.find?_some hfind
      rw [run_recallKey_known hfind]
      exact ⟨hresult, .known hmemo hk⟩
    | none =>
      -- the lookups of building are for smaller keys, where the statement is known
      have hbuild : (recalling c).Rel (build c.settings k fun k' _ => c.recallKey k')
          (build c.settings k (c.traced k.size)) := by
        apply (recalling c).build
        intro k' hk' _
        exact ih k'.size hk' k' rfl
      obtain ⟨hresult, hgrows⟩ := hbuild memo hmemo
      rw [result_build] at hresult
      rw [run_recallKey_new hfind (Prod.ext hresult rfl)]
      exact ⟨rfl, hgrows.record (not_mem_keys_of_find?_none hfind)⟩

end Catalog

/-! ## Places -/

namespace Memo

variable {c : Catalog} {memo after : Memo} {k : Key}

/-- The place of a key is that of its latest entry. -/
theorem slot?_cons (entry : Key × Option Mapping) (rest : List (Key × Option Mapping)) (k : Key) :
    (Memo.mk (entry :: rest)).slot? k =
      if entry.1 = k then entry.2.map fun _ => rest.length else (Memo.mk rest).slot? k := by
  obtain ⟨k', result⟩ := entry
  unfold slot?
  by_cases h : k' = k
  · cases result <;> simp [h]
  · simp [h]

/-- A place is the number of keys that had been resolved before. -/
theorem slot?_eq_some {entries : List (Key × Option Mapping)} {place : Nat}
    (h : (Memo.mk entries).slot? k = some place) :
    ∃ later m earlier, entries = later ++ (k, some m) :: earlier ∧ earlier.length = place := by
  induction entries with
  | nil => cases h
  | cons entry rest ih =>
    rw [slot?_cons] at h
    split at h
    · next hkey =>
      obtain ⟨m, hm, hplace⟩ := Option.map_eq_some_iff.mp h
      exact ⟨[], m, rest, by rw [← hkey, ← hm]; rfl, hplace⟩
    · obtain ⟨later, m, earlier, hentries, hplace⟩ := ih h
      exact ⟨entry :: later, m, earlier, by rw [hentries]; rfl, hplace⟩

/-- Keys with the same place are the same. -/
theorem eq_of_slot?_eq {k' : Key} (hsome : (memo.slot? k).isSome)
    (h : memo.slot? k = memo.slot? k') : k = k' := by
  obtain ⟨place, hplace⟩ := Option.isSome_iff_exists.mp hsome
  obtain ⟨later, m, earlier, hentries, hlength⟩ := slot?_eq_some hplace
  obtain ⟨later', m', earlier', hentries', hlength'⟩ := slot?_eq_some (h ▸ hplace)
  have hlengths : ((k, some m) :: earlier).length = ((k', some m') :: earlier').length := by
    rw [List.length_cons, List.length_cons, hlength, hlength']
  have hsuffix := (List.append_inj' (hentries.symm.trans hentries') hlengths).2
  exact congrArg Prod.fst (List.cons.inj hsuffix).1

/-- A key with a result has a place when the result is a mapping. -/
theorem isSome_slot? {entries : List (Key × Option Mapping)}
    (hresults : ∀ entry ∈ entries, entry.2 = c.resolveKey entry.1)
    (hk : k ∈ entries.map Prod.fst) :
    ((Memo.mk entries).slot? k).isSome ↔ (c.resolveKey k).isSome := by
  induction entries with
  | nil => exact absurd hk List.not_mem_nil
  | cons entry rest ih =>
    obtain ⟨hresult, hrest⟩ := List.forall_mem_cons.mp hresults
    rw [slot?_cons]
    split
    · next hkey => rw [← hkey, ← hresult, Option.isSome_map]
    · next hkey =>
      rcases List.mem_cons.mp hk with hfirst | hk
      · exact absurd hfirst.symm hkey
      · exact ih hrest hk

/-- A key keeps its place when other keys are added. -/
theorem slot?_append {new old : List (Key × Option Mapping)} (h : k ∉ new.map Prod.fst) :
    (Memo.mk (new ++ old)).slot? k = (Memo.mk old).slot? k := by
  induction new with
  | nil => rfl
  | cons entry rest ih =>
    rw [List.map_cons, List.mem_cons, not_or] at h
    rw [List.cons_append, slot?_cons, if_neg fun heq => h.1 heq.symm, ih h.2]

/-- A key keeps its place when the memory grows. -/
theorem Coherent.slot?_of_suffix (hcoherent : after.Coherent c)
    (h : memo.entries <:+ after.entries) (hk : k ∈ memo.keys) : after.slot? k = memo.slot? k := by
  obtain ⟨new, hnew⟩ := h
  have hdistinct := hcoherent.distinct
  rw [keys, ← hnew, List.map_append, List.nodup_append] at hdistinct
  have hafter : after = ⟨new ++ memo.entries⟩ := congrArg Memo.mk hnew.symm
  rw [hafter]
  exact slot?_append fun hmem => hdistinct.2.2 k hmem k hk rfl

end Memo

/-! ## Requests -/

namespace Catalog

open Memo

variable {c : Catalog} {memo : Memo}

/-- A request without a key has no answer and leaves the memory alone. -/
theorem answer_of_key?_none {r : Request} (h : r.key? = none) :
    c.answer r memo = ⟨none, none, memo⟩ := by
  cases r with
  | ofValue v =>
    rw [Request.key?] at h
    rw [answer]
    split at h
    · rfl
    · cases h
  | _ => cases h

/-- A request with a key is answered by the lookup of the key. -/
theorem answer_of_key?_some {r : Request} {k : Key} (h : r.key? = some k) :
    c.answer r memo = ⟨((c.recallKey k).run memo).1, ((c.recallKey k).run memo).2.slot? k,
      ((c.recallKey k).run memo).2⟩ := by
  cases r with
  | ofValue v =>
    rw [Request.key?] at h
    rw [answer]
    split at h
    · cases h
    · cases h
      rfl
  | _ =>
    cases h
    rfl

/-- Whatever is in the memory, a request is answered by the mapping of its key. -/
theorem mapping_answer (h : memo.Coherent c) (r : Request) :
    (c.answer r memo).mapping = r.key?.bind c.resolveKey := by
  cases hkey : r.key? with
  | none => rw [answer_of_key?_none hkey, Option.bind_none]
  | some k =>
    rw [answer_of_key?_some hkey]
    exact (recalling_recallKey c k memo h).1

/-- The place in an answer is that of the key. -/
theorem place_answer (c : Catalog) (memo : Memo) (r : Request) :
    (c.answer r memo).place = r.key?.bind (c.answer r memo).memory.slot? := by
  cases hkey : r.key? with
  | none => rw [answer_of_key?_none hkey, Option.bind_none]
  | some k => rw [answer_of_key?_some hkey, Option.bind_some]

/-- An answer adds the key of the request and what is reached from it. -/
theorem grows_answer (h : memo.Coherent c) (r : Request) :
    Grows c memo r.key?.toList (c.answer r memo).memory := by
  cases hkey : r.key? with
  | none =>
    rw [answer_of_key?_none hkey]
    exact .refl h
  | some k =>
    rw [answer_of_key?_some hkey]
    exact (recalling_recallKey c k memo h).2

/-- Requests in turn add their keys and what is reached from them. -/
theorem grows_foldl_answer (h : memo.Coherent c) (requests : List Request) :
    Grows c memo (requests.filterMap Request.key?)
      (requests.foldl (fun memo r => (c.answer r memo).memory) memo) := by
  induction requests generalizing memo with
  | nil => exact .refl h
  | cons r rest ih =>
    have hfirst := grows_answer h r
    have hall := hfirst.trans (ih hfirst.coherent)
    rw [List.foldl_cons, List.filterMap_cons]
    cases hkey : r.key? with
    | none => simpa [hkey] using hall
    | some k => simpa [hkey] using hall

/-- The memory after requests holds the keys that they reach. -/
theorem grows_memoryAfter (c : Catalog) (requests : List Request) :
    Grows c .empty (requests.filterMap Request.key?) (c.memoryAfter requests) :=
  grows_foldl_answer (coherent_empty c) requests

/-- A request that is repeated leaves the memory the same. -/
theorem memory_answer_of_mem {r : Request} {k : Key} (hkey : r.key? = some k)
    (hk : k ∈ memo.keys) : (c.answer r memo).memory = memo := by
  rw [answer_of_key?_some hkey]
  cases hfind : memo.find? k with
  | none => exact absurd hk (not_mem_keys_of_find?_none hfind)
  | some result => rw [run_recallKey_known hfind]

/-- The key of a request is in the memory after the answer. -/
theorem mem_keys_answer (h : memo.Coherent c) {r : Request} {k : Key} (hkey : r.key? = some k) :
    k ∈ (c.answer r memo).memory.keys := by
  have hgrows := grows_answer h r
  rw [hkey] at hgrows
  exact (hgrows.mem_keys k).mpr (Or.inr ⟨k, List.mem_singleton_self k, .refl k⟩)

/-- An answer has a place when it has a mapping. -/
theorem isSome_place_answer (h : memo.Coherent c) (r : Request) :
    (c.answer r memo).place.isSome ↔ (c.answer r memo).mapping ≠ none := by
  rw [place_answer, mapping_answer h, Option.ne_none_iff_isSome]
  cases hkey : r.key? with
  | none => rfl
  | some k => exact isSome_slot? (grows_answer h r).coherent.results (mem_keys_answer h hkey)

/-- The place in an answer stays that of the key when the memory grows. -/
theorem place_answer_of_suffix {r : Request} {k : Key} {later : Memo} (h : memo.Coherent c)
    (hkey : r.key? = some k) (hcoherent : later.Coherent c)
    (hkeeps : (c.answer r memo).memory.entries <:+ later.entries) :
    (c.answer r memo).place = later.slot? k := by
  rw [place_answer, hkey, Option.bind_some]
  exact (hcoherent.slot?_of_suffix hkeeps (mem_keys_answer h hkey)).symm

/-- An answer and a later one are the same object when both are for the same key, which has a
mapping. -/
theorem same_answer_iff {later : Memo} {keys : List Key} (h : memo.Coherent c) (r s : Request)
    (hlater : Grows c (c.answer r memo).memory keys later) :
    (c.answer r memo).Same (c.answer s later) ↔
      r.key? = s.key? ∧ (c.answer r memo).mapping ≠ none := by
  rw [Answer.Same, ← isSome_place_answer h]
  cases hkey : r.key? with
  | none => simp [place_answer c memo r, hkey]
  | some k =>
    have hend := grows_answer hlater.coherent s
    rw [place_answer_of_suffix h hkey hend.coherent (hlater.keeps.trans hend.keeps),
      place_answer c later s]
    cases hkey' : s.key? with
    | none =>
      refine iff_of_false ?_ ?_
      · rintro ⟨hsome, hnone⟩
        rw [hnone] at hsome
        cases hsome
      · rintro ⟨heq, -⟩
        cases heq
    | some k' =>
      constructor
      · rintro ⟨hsome, heq⟩
        exact ⟨congrArg some (eq_of_slot?_eq hsome heq), hsome⟩
      · rintro ⟨heq, hsome⟩
        cases heq
        exact ⟨hsome, rfl⟩

/-- The keys that requests reach, at once and in nested lookups. -/
def reached (c : Catalog) (requests : List Request) : Set Key :=
  {k | ∃ r ∈ requests, ∃ k₀, r.key? = some k₀ ∧ c.Reaches k₀ k}

/-- The keys in the memory are those that are reached. -/
theorem mem_keys_memoryAfter {requests : List Request} {k : Key} :
    k ∈ (c.memoryAfter requests).keys ↔ k ∈ c.reached requests := by
  rw [(grows_memoryAfter c requests).mem_keys]
  constructor
  · rintro (hempty | ⟨k₀, hk₀, hreach⟩)
    · exact absurd hempty List.not_mem_nil
    · obtain ⟨r, hr, hkey⟩ := List.mem_filterMap.mp hk₀
      exact ⟨r, hr, k₀, hkey, hreach⟩
  · rintro ⟨r, hr, k₀, hkey, hreach⟩
    exact Or.inr ⟨k₀, List.mem_filterMap.mpr ⟨r, hr, hkey⟩, hreach⟩

/-- The memory has as many keys as are reached. -/
theorem size_memoryAfter (c : Catalog) (requests : List Request) :
    (c.memoryAfter requests).size = (c.reached requests).ncard := by
  have hkeys : c.reached requests = ((c.memoryAfter requests).keys.toFinset : Set Key) := by
    ext k
    rw [← mem_keys_memoryAfter, Finset.mem_coe, List.mem_toFinset]
  rw [hkeys, Set.ncard_coe_finset,
    List.toFinset_card_of_nodup (grows_memoryAfter c requests).coherent.distinct]
  exact (List.length_map _).symm

/-- The memory of a catalog is transparent. Whatever requests came before, a request has the answer
that it has alone; two answers are the same object when the requests have the same key and the
answer is a mapping; the memory counts the keys reached so far; and a request that is repeated
leaves the memory the same. -/
theorem answer_memoryAfter (c : Catalog) (earlier later : List Request) (r s : Request) :
    (c.answer r (c.memoryAfter earlier)).mapping = (c.answer r .empty).mapping ∧
    ((c.answer r (c.memoryAfter earlier)).Same
        (c.answer s (c.memoryAfter (earlier ++ r :: later))) ↔
      r.key? = s.key? ∧ (c.answer r (c.memoryAfter earlier)).mapping ≠ none) ∧
    (c.memoryAfter earlier).size = (c.reached earlier).ncard ∧
    (c.answer r (c.memoryAfter (earlier ++ r :: later))).memory =
      c.memoryAfter (earlier ++ r :: later) := by
  have hcoherent := (grows_memoryAfter c earlier).coherent
  refine ⟨?_, ?_, size_memoryAfter c earlier, ?_⟩
  · rw [mapping_answer hcoherent, mapping_answer (coherent_empty c)]
  · have hlater : c.memoryAfter (earlier ++ r :: later) =
        later.foldl (fun memo r => (c.answer r memo).memory)
          (c.answer r (c.memoryAfter earlier)).memory := by
      rw [memoryAfter, List.foldl_append, List.foldl_cons]
      rfl
    rw [hlater]
    apply same_answer_iff hcoherent r s
    exact grows_foldl_answer (grows_answer hcoherent r).coherent later
  · cases hkey : r.key? with
    | none => rw [answer_of_key?_none hkey]
    | some k =>
      apply memory_answer_of_mem hkey
      exact mem_keys_memoryAfter.mpr ⟨r, by simp, k, hkey, .refl k⟩

end Catalog

end TypedSql
