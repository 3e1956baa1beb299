import Mathlib.Data.List.Perm.Subperm
import TypedSql.Proofs.HostType.Conformance
import TypedSql.Proofs.Json.Equality
import TypedSql.Proofs.Value.Equality

/-!
# Laws of equality

Under every comparer values are compared alike in either order, and values that equal the same value
are equal. A comparer looks into a value or compares it plainly, and it does the same for all values
that are equal to it, so the two ways never mix.
-/

namespace TypedSql

/-- The number of a decimal settles what it equals. -/
theorem Numeral.Scaled.sameNumber_trans {d e f : Scaled} (h : d.sameNumber e = true)
    (h' : e.sameNumber f = true) : d.sameNumber f = true := by
  unfold sameNumber at h h' ⊢
  rw [eq_of_beq h]
  exact h'

section Parts

variable {α β γ : Type} {R : α → β → Prop} {S : β → γ → Prop} {x : Option α} {y : Option β}
  {z : Option γ}

/-- What is found on both sides or on neither is so the other way round, if it is where found. -/
theorem rel_symm {T : β → α → Prop} (h : Option.Rel R x y)
    (hsymm : ∀ a, x = some a → ∀ b, y = some b → R a b → T b a) : Option.Rel T y x := by
  cases h with
  | some hab => exact .some (hsymm _ rfl _ rfl hab)
  | none => exact .none

/-- What is found on both sides or on neither twice in a row is so from end to end, if it is where
found. -/
theorem rel_trans {T : α → γ → Prop} (h : Option.Rel R x y) (h' : Option.Rel S y z)
    (htrans : ∀ a, x = some a → ∀ b c, R a b → S b c → T a c) : Option.Rel T x z := by
  cases h with
  | some hab =>
    cases h' with
    | some hbc => exact .some (htrans _ rfl _ _ hab hbc)
  | none =>
    cases h'
    exact .none

/-- What is found is related to itself, if it is where found. -/
theorem rel_self {T : α → α → Prop} (h : ∀ a, x = some a → T a a) : Option.Rel T x x := by
  cases x with
  | some a => exact .some (h a rfl)
  | none => exact .none

/-- A record with all names of another one of its size has no other names. -/
theorem Entries.mem_names_of_subset {r : Entries α} {s : Entries β} (hr : r.Distinct)
    (hsize : r.size = s.size) (hsub : r.names ⊆ s.names) {name : String} (h : name ∈ s.names) :
    name ∈ r.names := by
  have hlength : s.names.length ≤ r.names.length := by
    rw [names, names, List.length_map, List.length_map]
    exact Nat.le_of_eq hsize.symm
  have hperm : r.names.Perm s.names := (List.subperm_of_subset hr hsub).perm_of_length_le hlength
  exact hperm.mem_iff.mpr h

end Parts

namespace Value

variable {a b d : Value}

/-! ## Plain equality -/

/-- Values are the same in either order. -/
theorem same_symm (ha : a.WellFormed) (hb : b.WellFormed) (h : a.same b = true) :
    b.same a = true := by
  induction a using induct generalizing b with
  | step a ih =>
    have hitems {as bs : List Value} (has : as ⊆ a.parts) (hbs : bs ⊆ b.parts)
        (h : List.Forall₂ (fun x y => x.same y = true) as bs) :
        List.Forall₂ (fun x y => x.same y = true) bs as :=
      forall₂_symm h fun x hx y hy =>
        ih x (has hx) (ha.of_mem (has hx)) (hb.of_mem (hbs hy))
    replace h := same_iff.mp h
    rw [same_iff]
    cases h with
    | atom hatom => exact .atom hatom
    | f32 hxy => exact .f32 (Numeral.ieee_comm.trans hxy)
    | f64 hxy => exact .f64 (Numeral.ieee_comm.trans hxy)
    | decimal hde => exact .decimal (BEq.symm hde)
    | bigDecimal hde => exact .bigDecimal (BEq.symm hde)
    | zoned hzw => exact .zoned hzw.symm
    | json hjk => exact .json (Json.same_symm hjk)
    | list h => exact .list (hitems (List.Subset.refl _) (List.Subset.refl _) h)
    | multi h => exact .multi (hitems (List.Subset.refl _) (List.Subset.refl _) h)
    | @record r s hsize h =>
      refine .record hsize.symm fun entry hentry => ?_
      -- both have the same names, so that some entry stands for this one on the other side
      have hsub : r.names ⊆ s.names := by
        intro name hname
        obtain ⟨entry, hentry, rfl⟩ := List.mem_map.mp hname
        obtain ⟨y, hy, -⟩ := h entry hentry
        exact List.mem_map.mpr ⟨_, Entries.mem_of_get? hy, rfl⟩
      obtain ⟨⟨name, x⟩, hx, hname⟩ := List.mem_map.mp
        (Entries.mem_names_of_subset ha.distinct hsize hsub (List.mem_map_of_mem hentry))
      obtain rfl : name = entry.1 := hname
      obtain ⟨y, hy, hxy⟩ := h _ hx
      obtain rfl := Option.some.inj ((Entries.get?_of_mem hb.distinct hentry).symm.trans hy)
      have hmem : x ∈ (record r).parts := List.mem_map_of_mem hx
      have hmem' : entry.2 ∈ (record s).parts := List.mem_map_of_mem hentry
      exact ⟨x, Entries.get?_of_mem ha.distinct hx,
        ih x hmem (ha.of_mem hmem) (hb.of_mem hmem') hxy⟩

/-- Values that are the same as the same value are the same. -/
theorem same_trans (h : a.same b = true) (h' : b.same d = true) : a.same d = true := by
  induction a using induct generalizing b d with
  | step a ih =>
    replace h := same_iff.mp h
    replace h' := same_iff.mp h'
    rw [same_iff]
    cases h with
    | atom => exact h'
    | f32 hxy =>
      cases h' with
      | atom hatom => cases hatom
      | f32 hyz => exact .f32 (Numeral.ieee_trans hxy hyz)
    | f64 hxy =>
      cases h' with
      | atom hatom => cases hatom
      | f64 hyz => exact .f64 (Numeral.ieee_trans hxy hyz)
    | decimal hde =>
      cases h' with
      | atom hatom => cases hatom
      | decimal hef => exact .decimal (Numeral.Scaled.sameNumber_trans hde hef)
    | bigDecimal hde =>
      cases h' with
      | atom hatom => cases hatom
      | bigDecimal hef => exact .bigDecimal (Numeral.Scaled.sameNumber_trans hde hef)
    | zoned hzw =>
      cases h' with
      | atom hatom => cases hatom
      | zoned hwz => exact .zoned (hzw.trans hwz)
    | json hjk =>
      cases h' with
      | atom hatom => cases hatom
      | json hkl => exact .json (Json.same_trans hjk hkl)
    | list h =>
      cases h' with
      | atom hatom => cases hatom
      | list h' => exact .list (forall₂_trans h h' fun x hx _ _ => ih x hx)
    | multi h =>
      cases h' with
      | atom hatom => cases hatom
      | multi h' => exact .multi (forall₂_trans h h' fun x hx _ _ => ih x hx)
    | record hsize h =>
      cases h' with
      | atom hatom => cases hatom
      | record hsize' h' =>
        refine .record (hsize.trans hsize') fun entry hentry => ?_
        obtain ⟨y, hy, hxy⟩ := h entry hentry
        obtain ⟨z, hz, hyz⟩ := h' _ (Entries.mem_of_get? hy)
        exact ⟨z, hz, ih entry.2 (List.mem_map_of_mem hentry) hxy hyz⟩

end Value

/-! ## Equality under a comparer -/

namespace Comparer

variable {c : Comparer} {a b d : Value}

/-- A comparer looks into both or neither of two values that are the same. -/
theorem looksInto_of_same (h : a.same b = true) : c.looksInto a = c.looksInto b := by
  cases Value.same_iff.mp h with
  | atom => rfl
  | _ => cases c <;> rfl

/-- Values are equal in either order. -/
theorem equals_symm (ha : a.WellFormed) (hb : b.WellFormed) (h : c.equals a b = true) :
    c.equals b a = true := by
  induction a using Value.induct generalizing c b with
  | step a ih =>
    replace h := equals_iff.mp h
    rw [equals_iff]
    cases h with
    | plain hc h => exact .plain (looksInto_of_same h ▸ hc) (Value.same_symm ha hb h)
    | floats ha hb => exact .floats hb ha
    | items h =>
      refine .items (forall₂_symm h fun x hx y hy => ?_)
      exact ih x hx (ha.of_mem hx) (hb.of_mem hy)
    | members h =>
      refine .members fun member hmember => rel_symm (h member hmember) fun x hx y hy => ?_
      have hx := Value.mem_parts_of_getIgnoringCase? hx
      exact ih x hx (ha.of_mem hx) (hb.of_mem (Value.mem_parts_of_getIgnoringCase? hy))

/-- Values that equal the same value are equal. -/
theorem equals_trans (h : c.equals a b = true) (h' : c.equals b d = true) :
    c.equals a d = true := by
  induction a using Value.induct generalizing c b d with
  | step a ih =>
    replace h := equals_iff.mp h
    cases h with
    | plain hc h =>
      rw [equals_plain (looksInto_of_same h ▸ hc)] at h'
      rw [equals_plain hc]
      exact Value.same_trans h h'
    | floats ha hb =>
      rw [equals_float hb] at h'
      rwa [equals_float ha]
    | items h =>
      obtain ⟨ds, rfl, hds⟩ := equals_list.mp h'
      exact equals_list.mpr ⟨ds, rfl, forall₂_trans h hds fun x hx _ _ => ih x hx⟩
    | members h =>
      obtain ⟨t, rfl, ht⟩ := equals_record.mp h'
      refine equals_record.mpr ⟨t, rfl, fun member hmember => ?_⟩
      refine rel_trans (h member hmember) (ht member hmember) fun x hx _ _ => ?_
      exact ih x (Value.mem_parts_of_getIgnoringCase? hx)

end Comparer

end TypedSql
