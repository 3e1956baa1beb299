import Mathlib.Data.List.Forall2
import TypedSql.Fault

/-!
# Results that succeed

When a computation that may end in a fault has a result, and how this follows from its parts. The
fault is an option of its own where the first of several is looked for. Two computations are related
when both end in a fault or both have results that are related.
-/

namespace TypedSql.Result

variable {α β : Type}

/-- A result that is no fault. -/
def Succeeds (r : Result α) : Prop := ∃ a, r = .ok a

@[simp]
theorem succeeds_ok (a : α) : Succeeds (.ok a) := ⟨a, rfl⟩

@[simp]
theorem not_succeeds_error (fault : Fault) : ¬Succeeds (.error fault : Result α) :=
  fun ⟨_, h⟩ => nomatch h

/-- A function of a result changes nothing about its success. -/
@[simp]
theorem succeeds_map {f : α → β} {r : Result α} : Succeeds (r.map f) ↔ Succeeds r := by
  cases r <;> simp [Except.map]

/-- A function of a result is had from the result. -/
theorem map_eq_ok {f : α → β} {r : Result α} {b : β} :
    r.map f = .ok b ↔ ∃ a, r = .ok a ∧ f a = b := by
  cases r <;> simp [Except.map]

/-- Steps in a row have the result of the last one. -/
theorem bind_eq_ok {r : Result α} {f : α → Result β} {b : β} :
    r >>= f = .ok b ↔ ∃ a, r = .ok a ∧ f a = .ok b := by
  cases r <;> simp [Bind.bind, Except.bind]

/-- Steps in a row succeed when the first does and the next does on its result. -/
theorem succeeds_bind {r : Result α} {f : α → Result β} :
    Succeeds (r >>= f) ↔ ∃ a, r = .ok a ∧ Succeeds (f a) := by
  cases r with
  | error fault => exact iff_of_false (not_succeeds_error fault) fun ⟨_, h, _⟩ => nomatch h
  | ok a =>
    constructor
    · intro h
      exact ⟨a, rfl, h⟩
    · rintro ⟨b, hb, h⟩
      cases hb
      exact h

/-- A step for each item succeeds when each step does. -/
theorem succeeds_mapM {f : α → Result β} {items : List α} :
    Succeeds (items.mapM f) ↔ ∀ item ∈ items, Succeeds (f item) := by
  induction items with
  | nil => exact iff_of_true (succeeds_ok []) fun _ h => absurd h List.not_mem_nil
  | cons first rest ih =>
    rw [List.mapM_cons, succeeds_bind, List.forall_mem_cons, ← ih]
    constructor
    · rintro ⟨b, hb, hrest⟩
      obtain ⟨others, hothers, -⟩ := succeeds_bind.mp hrest
      exact ⟨⟨b, hb⟩, others, hothers⟩
    · rintro ⟨⟨b, hb⟩, others, hothers⟩
      exact ⟨b, hb, succeeds_bind.mpr ⟨others, hothers, succeeds_ok _⟩⟩

/-! ## Faults -/

/-- The fault that a computation ends in. -/
def fault? : Result α → Option Fault
  | .ok _ => none
  | .error fault => some fault

@[simp]
theorem fault?_ok (a : α) : fault? (.ok a) = none := rfl

@[simp]
theorem fault?_error (fault : Fault) : fault? (.error fault : Result α) = some fault := rfl

/-- A function of a result changes nothing about its fault. -/
@[simp]
theorem fault?_map {f : α → β} {r : Result α} : fault? (r.map f) = fault? r := by
  cases r <;> rfl

/-- What ends in no fault succeeds. -/
theorem fault?_eq_none {r : Result α} : fault? r = none ↔ Succeeds r := by
  cases r <;> simp

/-- What ends in a fault is that fault. -/
theorem fault?_eq_some {r : Result α} {fault : Fault} :
    fault? r = some fault ↔ r = .error fault := by
  cases r <;> simp

/-! ## Related results -/

/-- What is related one by one has a counterpart. -/
theorem exists_mem_of_forall₂ {R : α → β → Prop} {as : List α} {bs : List β}
    (h : List.Forall₂ R as bs) {a : α} (ha : a ∈ as) : ∃ b ∈ bs, R a b := by
  induction h with
  | nil => exact absurd ha List.not_mem_nil
  | cons hab _ ih =>
    rcases List.mem_cons.mp ha with rfl | ha
    · exact ⟨_, List.mem_cons_self .., hab⟩
    · obtain ⟨b, hb, hR⟩ := ih ha
      exact ⟨b, List.mem_cons_of_mem _ hb, hR⟩

/-- Two results that are both faults, or related values. -/
inductive Related (R : α → β → Prop) : Result α → Result β → Prop
  | ok {a : α} {b : β} (h : R a b) : Related R (.ok a) (.ok b)
  | error (f g : Fault) : Related R (.error f) (.error g)

/-- Each result is related to itself by a reflexive relation. -/
theorem related_refl {R : α → α → Prop} (h : ∀ a, R a a) (r : Result α) : Related R r r := by
  cases r with
  | ok a => exact .ok (h a)
  | error f => exact .error f f

/-- Two faults are related by any relation. -/
theorem related_of_errors {R : α → β → Prop} {r : Result α} {s : Result β}
    (hr : ∃ f, r = .error f) (hs : ∃ g, s = .error g) : Related R r s := by
  obtain ⟨f, rfl⟩ := hr
  obtain ⟨g, rfl⟩ := hs
  exact .error f g

/-- Results are related when they succeed together and their values are related. -/
theorem related_of_succeeds {R : α → β → Prop} {r : Result α} {s : Result β}
    (hsucceeds : Succeeds r ↔ Succeeds s) (h : ∀ a b, r = .ok a → s = .ok b → R a b) :
    Related R r s := by
  cases r with
  | ok a =>
    obtain ⟨b, rfl⟩ := hsucceeds.mp ⟨a, rfl⟩
    exact .ok (h a b rfl rfl)
  | error f =>
    cases s with
    | ok b => exact absurd (hsucceeds.mpr ⟨b, rfl⟩) (not_succeeds_error f)
    | error g => exact .error f g

section Steps

variable {α' β' : Type} {R : α → β → Prop} {S : α' → β' → Prop} {r : Result α} {s : Result β}

/-- Related results succeed together. -/
theorem Related.succeeds_iff (h : Related R r s) : Succeeds r ↔ Succeeds s := by
  cases h <;> simp

/-- Functions that keep values related keep results related. -/
theorem Related.map {f : α → α'} {g : β → β'} (h : Related R r s)
    (hfg : ∀ a b, R a b → S (f a) (g b)) : Related S (r.map f) (s.map g) := by
  cases h with
  | ok hab => exact .ok (hfg _ _ hab)
  | error f g => exact .error f g

/-- Steps that keep values related keep results related. -/
theorem Related.bind {f : α → Result α'} {g : β → Result β'} (h : Related R r s)
    (hfg : ∀ a b, R a b → Related S (f a) (g b)) : Related S (r >>= f) (s >>= g) := by
  cases h with
  | ok hab => exact hfg _ _ hab
  | error f g => exact .error f g

/-- Items with related results have lists of results that are related item by item. -/
theorem related_mapM {f : α → Result α'} {g : β → Result β'} {as : List α} {bs : List β}
    (h : List.Forall₂ (fun a b => Related S (f a) (g b)) as bs) :
    Related (List.Forall₂ S) (as.mapM f) (bs.mapM g) := by
  induction h with
  | nil => exact .ok .nil
  | cons hab _ ih =>
    rw [List.mapM_cons, List.mapM_cons]
    exact hab.bind fun x y hxy => ih.bind fun xs ys hrest => .ok (.cons hxy hrest)

end Steps

end TypedSql.Result
