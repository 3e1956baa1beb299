import Mathlib.Data.List.Forall2
import TypedSql.Json.Basic

/-!
# Texts of equal documents

Documents that are equal by structure differ in the sign of zeros at most. Their texts show that
sign, so equal documents have the same text exactly when they are identical.
-/

namespace TypedSql

open Numeral

/-! ## Numbers -/

namespace Numeral.Binary64

/-- There are two zeros. -/
theorem eq_of_isZero {x : Binary64} (h : x.isZero = true) :
    x = ⟨0⟩ ∨ x = ⟨0x8000000000000000⟩ := by
  obtain ⟨bits⟩ := x
  unfold isZero parts FloatFormat.classify at h
  extract_lets negative field fraction at h
  have hbits := bits.toNat_lt
  have hzero : field = 0 ∧ fraction = 0 := by
    split at h
    next hclass =>
      obtain rfl := eq_of_beq h
      split at hclass
      next => split at hclass <;> cases hclass
      next =>
        split at hclass
        next hfield =>
          injection hclass with _ hfraction _
          exact ⟨hfield, hfraction⟩
        next =>
          injection hclass with _ hsignificand _
          simp [FloatFormat.wide] at hsignificand
    next => cases h
  have hcases : bits.toNat = 0 ∨ bits.toNat = 0x8000000000000000 := by
    simp only [field, fraction, FloatFormat.wide] at hzero
    omega
  rcases hcases with h | h
  · exact Or.inl (congrArg mk (UInt64.toNat_inj.mp h))
  · exact Or.inr (congrArg mk (UInt64.toNat_inj.mp h))

end Numeral.Binary64

namespace JsonNumber

/-- Numbers that are equal have the same text, whatever follows, exactly when they are identical. -/
theorem render_append_iff {m n : JsonNumber} (h : m.same n = true) (x y : List Char) :
    m.render ++ x = n.render ++ y ↔ m = n ∧ x = y := by
  unfold same at h
  split at h
  next =>
    obtain rfl := eq_of_beq h
    simp
  next =>
    obtain rfl := eq_of_beq h
    simp
  next a b =>
    simp only [Binary64.ieeeEq, Bool.and_eq_true, Bool.or_eq_true, beq_iff_eq] at h
    obtain ⟨-, rfl | ⟨ha, hb⟩⟩ := h
    · simp
    · have hzero : render (.float ⟨0⟩) = "0.0".toList := by rfl
      have hnegative : render (.float ⟨0x8000000000000000⟩) = "-0.0".toList := by rfl
      rcases Binary64.eq_of_isZero ha with rfl | rfl <;>
        rcases Binary64.eq_of_isZero hb with rfl | rfl <;>
        simp [hzero, hnegative]
  next => cases h

end JsonNumber

namespace Json

/-! ## Parts of documents -/

/-- The documents directly inside a document. -/
def parts : Json → List Json
  | .array items => items
  | .object members => members.map Prod.snd
  | _ => []

/-- What is inside a document is smaller. -/
theorem sizeOf_part_lt {j k : Json} (h : k ∈ j.parts) : sizeOf k < sizeOf j := by
  cases j with
  | array items =>
    have := List.sizeOf_lt_of_mem (show k ∈ items from h)
    simp only [array.sizeOf_spec]
    omega
  | object members =>
    obtain ⟨member, hmember, rfl⟩ := List.mem_map.mp h
    have := List.sizeOf_lt_of_mem (show member ∈ members from hmember)
    obtain ⟨key, value⟩ := member
    simp only [object.sizeOf_spec, Prod.mk.sizeOf_spec] at this ⊢
    omega
  | _ => exact absurd h List.not_mem_nil

/-- Induction over documents from what is directly inside them. -/
theorem induct {motive : Json → Prop} (step : ∀ j, (∀ k ∈ j.parts, motive k) → motive j)
    (j : Json) : motive j :=
  step j fun k _ => induct step k
termination_by sizeOf j
decreasing_by exact sizeOf_part_lt ‹_›

/-! ## Texts -/

/-- Two documents have the same text, whatever follows, exactly when they are identical. -/
def TextDetermines (j k : Json) : Prop :=
  ∀ x y, j.render ++ x = k.render ++ y ↔ j = k ∧ x = y

/-- The text of items determines them one by one. -/
theorem renderItems_append_iff {as bs : List Json} (h : List.Forall₂ TextDetermines as bs)
    (x y : List Char) : renderItems as ++ x = renderItems bs ++ y ↔ as = bs ∧ x = y := by
  induction h generalizing x y with
  | nil => simp [renderItems]
  | @cons j k js ks hjk hrest ih =>
    cases hrest with
    | nil => simp [renderItems, hjk x y]
    | cons =>
      simp only [renderItems, List.append_assoc, List.cons_append]
      rw [hjk _ _, List.cons.injEq, ih]
      simp [and_assoc]

/-- The text of members with the same keys determines their values one by one. -/
theorem renderMembers_append_iff {as bs : List (String × Json)}
    (h : List.Forall₂ (fun a b => a.1 = b.1 ∧ TextDetermines a.2 b.2) as bs) (x y : List Char) :
    renderMembers as ++ x = renderMembers bs ++ y ↔ as = bs ∧ x = y := by
  induction h generalizing x y with
  | nil => simp [renderMembers]
  | @cons a b as bs hab hrest ih =>
    obtain ⟨key, j⟩ := a
    obtain ⟨key', k⟩ := b
    obtain ⟨rfl, hjk⟩ := hab
    cases hrest with
    | nil => simp [renderMembers, hjk x y]
    | @cons a b =>
      obtain ⟨_, _⟩ := a
      obtain ⟨_, _⟩ := b
      simp only [renderMembers, List.append_assoc, List.cons_append]
      rw [List.append_cancel_left_eq, List.cons.injEq, hjk _ _, List.cons.injEq, ih]
      simp [and_assoc]

/-- Items are equal when they agree one by one. -/
theorem sameItems_iff {as bs : List Json} :
    sameItems as bs = true ↔ List.Forall₂ (fun j k => j.same k = true) as bs := by
  induction as generalizing bs with
  | nil => cases bs <;> simp [sameItems]
  | cons j js ih => cases bs <;> simp [sameItems, ih]

/-- Members are equal when they have the same keys and agree one by one. -/
theorem sameMembers_iff {as bs : List (String × Json)} : sameMembers as bs = true ↔
    List.Forall₂ (fun a b => a.1 = b.1 ∧ a.2.same b.2 = true) as bs := by
  induction as generalizing bs with
  | nil => cases bs <;> simp [sameMembers]
  | cons a as ih => cases bs <;> simp [sameMembers, ih, and_assoc]

/-- Documents that are equal by structure have the same text exactly when they are identical. -/
theorem textDetermines_of_same {j k : Json} (h : j.same k = true) : TextDetermines j k := by
  induction j using Json.induct generalizing k with
  | step j ih =>
    intro x y
    unfold same at h
    split at h
    next => simp
    next =>
      obtain rfl := eq_of_beq h
      simp
    next m n => simp [render, JsonNumber.render_append_iff h]
    next =>
      obtain rfl := eq_of_beq h
      simp
    next as bs =>
      obtain ⟨hlength, hzip⟩ := List.forall₂_iff_zip.mp (sameItems_iff.mp h)
      have hitems : List.Forall₂ TextDetermines as bs :=
        List.forall₂_iff_zip.mpr ⟨hlength, fun hmem => ih _ (List.of_mem_zip hmem).1 (hzip hmem)⟩
      simp [render, renderItems_append_iff hitems]
    next as bs =>
      obtain ⟨hlength, hzip⟩ := List.forall₂_iff_zip.mp (sameMembers_iff.mp h)
      have hmembers : List.Forall₂ (fun a b => a.1 = b.1 ∧ TextDetermines a.2 b.2) as bs := by
        refine List.forall₂_iff_zip.mpr ⟨hlength, fun hmem => ⟨(hzip hmem).1, ?_⟩⟩
        exact ih _ (List.mem_map_of_mem (List.of_mem_zip hmem).1) (hzip hmem).2
      simp [render, renderMembers_append_iff hmembers]
    next => cases h

end Json

end TypedSql
