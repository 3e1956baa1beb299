import TypedSql.Proofs.Wire.Naming

/-!
# Runs of pushes

Names that were asked for and names that were generated stand in one list. Whatever is pushed, in
whatever order, no name is empty and none occurs twice, and a push changes the entry of its own name
at most. The search for a name to generate tries one numbered name after the other, with no end in
sight; it ends because no more of them can be taken than there are names.
-/

namespace TypedSql.Parameters

/-! ## Searches -/

section Search

variable {taken : List String} {start probes probes' : Nat} {name name' : String}

/-- `Search taken start probes name`: trying numbered names one after the other from `start` on, a
search ends after so many of them, at one that is not taken. -/
inductive Search (taken : List String) : Nat → Nat → String → Prop
  | found {start : Nat} (h : numbered start ∉ taken) : Search taken start 1 (numbered start)
  | next {start probes : Nat} {name : String} (h : numbered start ∈ taken)
      (hrest : Search taken (start + 1) probes name) : Search taken start (probes + 1) name

/-- A search has one end at most. -/
theorem Search.unique (h : Search taken start probes name) (h' : Search taken start probes' name') :
    probes' = probes ∧ name' = name := by
  induction h generalizing probes' with
  | found hfree =>
    cases h' with
    | found => exact ⟨rfl, rfl⟩
    | next htaken => exact absurd htaken hfree
  | next htaken _ ih =>
    cases h' with
    | found hfree => exact absurd htaken hfree
    | next _ hrest =>
      obtain ⟨rfl, rfl⟩ := ih hrest
      exact ⟨rfl, rfl⟩

/-- A search passes the names that are taken and ends at the first one that is not. -/
theorem search_of_first {i : Nat} (hfree : numbered (start + i) ∉ taken)
    (htaken : ∀ j < i, numbered (start + j) ∈ taken) :
    Search taken start (i + 1) (numbered (start + i)) := by
  induction i generalizing start with
  | zero => exact .found hfree
  | succ i ih =>
    have hshift (j : Nat) : start + (j + 1) = start + 1 + j := by omega
    rw [hshift] at hfree ⊢
    refine .next (htaken 0 (Nat.succ_pos i)) (ih hfree fun j hj => ?_)
    rw [← hshift]
    exact htaken (j + 1) (Nat.succ_lt_succ hj)

/-- Every search ends, after one more try than there are names to avoid at most, and always at the
generated name. -/
theorem search_ends (taken : List String) (start : Nat) :
    ∃ probes ≤ taken.toFinset.card + 1, ∀ probes' name, Search taken start probes' name ↔
      probes' = probes ∧ name = freshName taken start := by
  obtain ⟨i, hi, hfree, htaken⟩ := freshName_eq taken start
  have hsearch := search_of_first hfree htaken
  rw [← hi] at hsearch
  refine ⟨i + 1, Nat.succ_le_succ (le_card_of_taken htaken), fun probes' name => ?_⟩
  constructor
  · exact hsearch.unique
  · rintro ⟨rfl, rfl⟩
    exact hsearch

end Search

/-! ## One push -/

variable {ps : List Parameter} {p q : Parameter}

/-- What is put is there. -/
theorem mem_put (p : Parameter) (ps : List Parameter) : p ∈ put p ps := by
  induction ps with
  | nil => exact List.mem_singleton_self p
  | cons q rest ih =>
    rw [put]
    split
    next => exact List.mem_cons_self ..
    next => exact List.mem_cons_of_mem _ ih

/-- A parameter under a free name is appended. -/
theorem put_of_not_mem (h : p.name ∉ names ps) : put p ps = ps ++ [p] := by
  induction ps with
  | nil => rfl
  | cons q rest ih =>
    rw [names_cons, List.mem_cons, not_or] at h
    rw [put, if_neg fun heq => h.1 heq.symm, ih h.2, List.cons_append]

/-- Parameters under other names stay where they are, and none is new. -/
theorem getElem?_put (h : q.name ≠ p.name) (i : Nat) :
    (put p ps)[i]? = some q ↔ ps[i]? = some q := by
  have hput : p ≠ q := fun heq => h (heq ▸ rfl)
  induction ps generalizing i with
  | nil => cases i <;> simp [put, hput]
  | cons r rest ih =>
    rw [put]
    split
    next heq =>
      have hreplaced : r ≠ q := fun hr => h (hr ▸ heq)
      cases i <;> simp [hput, hreplaced]
    next => cases i <;> simp [ih]

/-- Putting a parameter drops none. -/
theorem length_le_length_put (p : Parameter) (ps : List Parameter) :
    ps.length ≤ (put p ps).length := by
  induction ps with
  | nil => exact Nat.zero_le _
  | cons q rest ih =>
    rw [put]
    split
    next => exact Nat.le_refl _
    next => exact Nat.succ_le_succ ih

/-- No name is empty, and none occurs twice. -/
structure WellNamed (ps : List Parameter) : Prop where
  nonempty : "" ∉ names ps
  nodup : (names ps).Nodup

/-- Parameters of one name are one parameter. -/
theorem WellNamed.eq_of_name (h : WellNamed ps) (hp : p ∈ ps) (hq : q ∈ ps)
    (hname : p.name = q.name) : p = q :=
  List.inj_on_of_nodup_map h.nodup hp hq hname

/-- Putting a parameter that has a name keeps names apart. -/
theorem WellNamed.put (h : WellNamed ps) (hp : p.name ≠ "") : WellNamed (put p ps) := by
  constructor
  · rw [mem_names_put, not_or]
    exact ⟨hp.symm, h.nonempty⟩
  · rw [names_put]
    split
    next => exact h.nodup
    next hnew => exact List.nodup_append.mpr ⟨h.nodup, by simp, by grind⟩

/-- The name under which a parameter is pushed is not empty. -/
theorem name_push_ne_empty (ps : List Parameter) (p : Parameter) : (push ps p).1 ≠ "" := by
  rw [push]
  dsimp only
  split
  next => exact freshName_ne_empty _ _
  next hname => simpa using hname

/-- A push keeps names apart. -/
theorem WellNamed.push (h : WellNamed ps) (p : Parameter) : WellNamed (push ps p).2 :=
  h.put (name_push_ne_empty ps p)

/-- `Pushed ps p name after`: a parameter is pushed onto a list under a name. It is what is bound
under the name afterwards; without a name of its own it is appended, and with one it leaves the
parameters of other names where they are. -/
structure Pushed (ps : List Parameter) (p : Parameter) (name : String) (after : List Parameter) :
    Prop where
  bound : ∀ q : Parameter, q ∈ after ∧ q.name = name ↔ q = { p with name }
  unnamed : p.name = "" → after = ps ++ [{ p with name }]
  named : p.name ≠ "" → name = p.name ∧
    ∀ (i : Nat) (q : Parameter), q.name ≠ name → (after[i]? = some q ↔ ps[i]? = some q)
  grows : ps.length ≤ after.length

/-- What a push does to a list whose names are apart. -/
theorem pushed_push (h : WellNamed ps) (p : Parameter) : Pushed ps p (push ps p).1 (push ps p).2 := by
  have hmem : { p with name := (push ps p).1 } ∈ (push ps p).2 := mem_put _ ps
  constructor
  · intro q
    constructor
    · rintro ⟨hq, hname⟩
      exact (h.push p).eq_of_name hq hmem hname
    · rintro rfl
      exact ⟨hmem, rfl⟩
  · intro hp
    have hname : (push ps p).1 = freshName (names ps) ps.length := by simp [push, hp]
    have hfree : (push ps p).1 ∉ names ps := by
      rw [hname]
      exact freshName_not_mem _ _
    exact put_of_not_mem hfree
  · intro hp
    have hname : (push ps p).1 = p.name := by simp [push, hp]
    exact ⟨hname, fun i q hq => getElem?_put hq i⟩
  · exact length_le_length_put _ ps

/-! ## Runs -/

/-- The list after a run of pushes onto an empty one. -/
def pushAll (pushed : List Parameter) : List Parameter :=
  pushed.foldl (fun ps p => (push ps p).2) []

/-- Names are apart after every run. -/
theorem wellNamed_pushAll (pushed : List Parameter) : WellNamed (pushAll pushed) := by
  have hrun {ps : List Parameter} (h : WellNamed ps) :
      WellNamed (pushed.foldl (fun ps p => (push ps p).2) ps) := by
    induction pushed generalizing ps with
    | nil => exact h
    | cons p rest ih => exact ih (h.push p)
  exact hrun ⟨List.not_mem_nil, List.nodup_nil⟩

/-- After every run names are apart, one more push does what it should and no more, and the searches
for the name of a parameter and for one that is not reserved either end after one more try than there
are names to avoid at most. -/
theorem pushed_pushAll (pushed : List Parameter) (p : Parameter) (reserved : List String) :
    WellNamed (pushAll pushed) ∧
      Pushed (pushAll pushed) p (push (pushAll pushed) p).1 (push (pushAll pushed) p).2 ∧
      (∃ probes ≤ (names (pushAll pushed)).toFinset.card + 1, ∀ probes' name,
        Search (names (pushAll pushed)) (pushAll pushed).length probes' name ↔
          probes' = probes ∧ name = freshName (names (pushAll pushed)) (pushAll pushed).length) ∧
      ∃ probes ≤ (reserved ++ names (pushAll pushed)).toFinset.card + 1, ∀ probes' name,
        Search (reserved ++ names (pushAll pushed)) 0 probes' name ↔
          probes' = probes ∧ name = freshName (reserved ++ names (pushAll pushed)) 0 :=
  ⟨wellNamed_pushAll pushed, pushed_push (wellNamed_pushAll pushed) p, search_ends _ _,
    search_ends _ _⟩

/-- A name that looks generated is passed over. -/
example : (push (pushAll [.of "p1" (.bool true)]) (.of "" .null)).1 = "p2" := by decide

end TypedSql.Parameters
