import TypedSql.Proofs.Json.Rendering

/-!
# Equality of documents

Floats, numbers and documents are compared alike in either order, and what equals the same document
is equal. A document equals itself when no number in it is NaN, as in every document that has a
text.
-/

namespace TypedSql

/-! ## Lists -/

section Lists

variable {α β γ : Type} {R : α → β → Prop} {S : β → γ → Prop} {as : List α} {bs : List β}
  {cs : List γ}

/-- Lists that are related item by item are so the other way round, if their items are. -/
theorem forall₂_symm {T : β → α → Prop} (h : List.Forall₂ R as bs)
    (hsymm : ∀ a ∈ as, ∀ b ∈ bs, R a b → T b a) : List.Forall₂ T bs as := by
  induction h with
  | nil => exact .nil
  | cons hab _ ih =>
    refine .cons (hsymm _ (List.mem_cons_self ..) _ (List.mem_cons_self ..) hab) (ih ?_)
    exact fun a ha b hb => hsymm a (List.mem_cons_of_mem _ ha) b (List.mem_cons_of_mem _ hb)

/-- Lists that are related item by item to the same list are related, if their items are. -/
theorem forall₂_trans {T : α → γ → Prop} (h : List.Forall₂ R as bs) (h' : List.Forall₂ S bs cs)
    (htrans : ∀ a ∈ as, ∀ b c, R a b → S b c → T a c) : List.Forall₂ T as cs := by
  induction h generalizing cs with
  | nil =>
    cases h'
    exact .nil
  | cons hab _ ih =>
    cases h' with
    | cons hbc hrest =>
      refine .cons (htrans _ (List.mem_cons_self ..) _ _ hab hbc) (ih hrest ?_)
      exact fun a ha => htrans a (List.mem_cons_of_mem _ ha)

/-- A list is related to itself item by item, if its items are. -/
theorem forall₂_self {T : α → α → Prop} (h : ∀ a ∈ as, T a a) : List.Forall₂ T as as := by
  rw [List.forall₂_same]
  exact h

end Lists

/-! ## Numbers -/

namespace Numeral

section Ieee

variable {α : Type} [BEq α] [LawfulBEq α] {nan zero : α → Bool} {x y z : α}

/-- Comparison of floats of any width: NaN equals nothing, the zeros equal each other. -/
def ieee (nan zero : α → Bool) (x y : α) : Bool :=
  !nan x && !nan y && (x == y || (zero x && zero y))

/-- Floats are compared alike in either order. -/
theorem ieee_comm : ieee nan zero x y = ieee nan zero y x := by
  rw [ieee, ieee, Bool.and_comm (!nan x), BEq.comm, Bool.and_comm (zero x)]

/-- Floats that equal the same float are equal. -/
theorem ieee_trans (h : ieee nan zero x y = true) (h' : ieee nan zero y z = true) :
    ieee nan zero x z = true := by
  simp only [ieee, Bool.and_eq_true, Bool.or_eq_true, beq_iff_eq] at h h' ⊢
  obtain ⟨⟨hx, -⟩, hxy⟩ := h
  obtain ⟨⟨-, hz⟩, hyz⟩ := h'
  refine ⟨⟨hx, hz⟩, ?_⟩
  rcases hxy with rfl | ⟨hx, hy⟩
  · exact hyz
  · rcases hyz with rfl | ⟨-, hz⟩
    · exact Or.inr ⟨hx, hy⟩
    · exact Or.inr ⟨hx, hz⟩

end Ieee

/-- A float that is a number equals itself. -/
theorem Binary64.ieeeEq_self {x : Binary64} (h : x.isNaN = false) : x.ieeeEq x = true := by
  simp [ieeeEq, h]

end Numeral

namespace JsonNumber

variable {m n o : JsonNumber}

/-- Numbers are compared alike in either order. -/
theorem same_symm (h : m.same n = true) : n.same m = true := by
  unfold same at h
  split at h
  next => exact BEq.symm h
  next => exact BEq.symm h
  next => exact Numeral.ieee_comm.trans h
  next => cases h

/-- Numbers that equal the same number are equal. -/
theorem same_trans (h : m.same n = true) (h' : n.same o = true) : m.same o = true := by
  unfold same at h
  split at h
  next =>
    obtain rfl := eq_of_beq h
    exact h'
  next =>
    obtain rfl := eq_of_beq h
    exact h'
  next =>
    cases o with
    | float => exact Numeral.ieee_trans h h'
    | _ => cases h'
  next => cases h

/-- A number that is not NaN equals itself. -/
theorem same_self (h : ∀ x, n = .float x → x.isNaN = false) : n.same n = true := by
  cases n with
  | natural | negative => exact beq_self_eq_true _
  | float x => exact Numeral.Binary64.ieeeEq_self (h x rfl)

end JsonNumber

/-! ## Documents -/

namespace Json

variable {j k l : Json}

/-- Documents are compared alike in either order. -/
theorem same_symm (h : j.same k = true) : k.same j = true := by
  induction j using Json.induct generalizing k with
  | step j ih =>
    unfold same at h
    split at h
    next => rfl
    next => exact BEq.symm h
    next => exact JsonNumber.same_symm h
    next => exact BEq.symm h
    next as bs =>
      refine sameItems_iff.mpr (forall₂_symm (sameItems_iff.mp h) fun a ha b _ hab => ?_)
      exact ih a ha hab
    next as bs =>
      refine sameMembers_iff.mpr (forall₂_symm (sameMembers_iff.mp h) fun a ha b _ hab => ?_)
      exact ⟨hab.1.symm, ih a.2 (List.mem_map_of_mem ha) hab.2⟩
    next => cases h

/-- Documents that equal the same document are equal. -/
theorem same_trans (h : j.same k = true) (h' : k.same l = true) : j.same l = true := by
  induction j using Json.induct generalizing k l with
  | step j ih =>
    unfold same at h
    split at h
    next => exact h'
    next =>
      obtain rfl := eq_of_beq h
      exact h'
    next =>
      cases l with
      | number => exact JsonNumber.same_trans h h'
      | _ => cases h'
    next =>
      obtain rfl := eq_of_beq h
      exact h'
    next as bs =>
      cases l with
      | array cs =>
        refine sameItems_iff.mpr
          (forall₂_trans (sameItems_iff.mp h) (sameItems_iff.mp h') fun a ha b c hab hbc => ?_)
        exact ih a ha hab hbc
      | _ => cases h'
    next as bs =>
      cases l with
      | object cs =>
        refine sameMembers_iff.mpr
          (forall₂_trans (sameMembers_iff.mp h) (sameMembers_iff.mp h') fun a ha b c hab hbc => ?_)
        exact ⟨hab.1.trans hbc.1, ih a.2 (List.mem_map_of_mem ha) hab.2 hbc.2⟩
      | _ => cases h'
    next => cases h

/-- No number in a document is NaN. -/
inductive Numeric : Json → Prop
  | intro {j : Json} (hnumber : ∀ x, j = .number (.float x) → x.isNaN = false)
      (hparts : ∀ k ∈ j.parts, Numeric k) : Numeric j

/-- A document without NaN equals itself. -/
theorem same_self (h : j.Numeric) : j.same j = true := by
  induction h with
  | @intro j hnumber _ ih =>
    cases j with
    | null => rfl
    | bool | text => exact beq_self_eq_true _
    | number n => exact JsonNumber.same_self fun x hx => hnumber x (congrArg number hx)
    | array items => exact sameItems_iff.mpr (forall₂_self ih)
    | object members =>
      refine sameMembers_iff.mpr (forall₂_self fun member hmember => ⟨rfl, ?_⟩)
      exact ih member.2 (List.mem_map_of_mem hmember)

end Json

end TypedSql
