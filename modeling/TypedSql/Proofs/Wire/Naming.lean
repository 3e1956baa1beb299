import Mathlib.Data.Finset.Dedup
import Mathlib.Data.Finset.Card
import Mathlib.Data.Finset.Range
import TypedSql.Wire.Parameters

/-!
# Names in parameter lists

A generated name is the first numbered one that is free: among one more candidates than there are
names one is. Putting a parameter into a list changes what is bound under its own name and nothing
else: the first value there is replaced, so a name that was free has the one value of the parameter.
-/

namespace TypedSql.Parameters

/-! ## Generated names -/

/-- Different numbers give different names. -/
theorem numbered_injective {m n : Nat} (h : numbered m = numbered n) : m = n := by
  have hdigits : Nat.toDigits 10 m = Nat.toDigits 10 n := by
    simpa [numbered, Numeral.decimal] using congrArg String.toList h
  rw [← Nat.ofDigitChars_ten_toDigits (n := m), hdigits, Nat.ofDigitChars_ten_toDigits]

/-- A numbered name is not empty. -/
theorem numbered_ne_empty (n : Nat) : numbered n ≠ "" := fun h => by
  simpa [numbered] using congrArg String.toList h

variable {taken : List String} {start : Nat}

/-- No more numbered names in a row are taken than there are names. -/
theorem le_card_of_taken {count : Nat} (h : ∀ i < count, numbered (start + i) ∈ taken) :
    count ≤ taken.toFinset.card := by
  have hinjective : Function.Injective fun i => numbered (start + i) :=
    fun _ _ heq => Nat.add_left_cancel (numbered_injective heq)
  have hsubset : (Finset.range count).image (fun i => numbered (start + i)) ⊆ taken.toFinset := by
    intro name hname
    obtain ⟨i, hi, rfl⟩ := Finset.mem_image.mp hname
    exact List.mem_toFinset.mpr (h i (Finset.mem_range.mp hi))
  calc count
      = ((Finset.range count).image fun i => numbered (start + i)).card := by
        rw [Finset.card_image_of_injective _ hinjective, Finset.card_range]
    _ ≤ taken.toFinset.card := Finset.card_le_card hsubset

/-- A generated name is the first numbered one that is not taken. -/
theorem freshName_eq (taken : List String) (start : Nat) :
    ∃ i, freshName taken start = numbered (start + i) ∧ numbered (start + i) ∉ taken ∧
      ∀ j < i, numbered (start + j) ∈ taken := by
  unfold freshName
  split
  next i hfind =>
    obtain ⟨hfree, -, hfirst⟩ := List.find?_range_eq_some.mp hfind
    exact ⟨i, rfl, by simpa using hfree, by simpa using hfirst⟩
  next hnone =>
    -- if all candidates were taken, there would be more names than there are
    have hcard : taken.length + 1 ≤ taken.toFinset.card :=
      le_card_of_taken fun i hi => by
        simpa using List.find?_eq_none.mp hnone i (List.mem_range.mpr hi)
    exact absurd (hcard.trans taken.toFinset_card_le) (Nat.not_succ_le_self _)

/-- A generated name is not empty. -/
theorem freshName_ne_empty (taken : List String) (start : Nat) : freshName taken start ≠ "" := by
  obtain ⟨i, hi, -⟩ := freshName_eq taken start
  rw [hi]
  exact numbered_ne_empty _

/-- A generated name is not taken. -/
theorem freshName_not_mem (taken : List String) (start : Nat) : freshName taken start ∉ taken := by
  obtain ⟨i, hi, hfree, -⟩ := freshName_eq taken start
  rwa [hi]

/-! ## What is bound under a name -/

/-- The values bound under a name. -/
def values (ps : List Parameter) (name : String) : List Value :=
  (ps.filter fun p => p.name == name).map (·.value)

variable {ps : List Parameter} {p : Parameter} {name : String}

/-- Nothing is bound under a name that is not in the list. -/
theorem values_eq_nil (h : name ∉ names ps) : values ps name = [] := by
  rw [values, List.map_eq_nil_iff, List.filter_eq_nil_iff]
  intro p hp hname
  exact h (List.mem_map.mpr ⟨p, hp, by simpa using hname⟩)

/-- The names of a list, one by one. -/
theorem names_cons (p : Parameter) (ps : List Parameter) : names (p :: ps) = p.name :: names ps :=
  rfl

/-- Putting a parameter keeps the names and their order, and appends a name that is new. -/
theorem names_put (p : Parameter) (ps : List Parameter) :
    names (put p ps) = if p.name ∈ names ps then names ps else names ps ++ [p.name] := by
  induction ps with
  | nil => rfl
  | cons q rest ih =>
    rw [put]
    split
    next heq => simp [names_cons, heq]
    next hne =>
      have hne' : ¬p.name = q.name := fun h => hne h.symm
      by_cases hmem : p.name ∈ names rest <;> simp [names_cons, ih, hmem, hne']

/-- Putting a parameter adds its name. -/
theorem mem_names_put : name ∈ names (put p ps) ↔ name = p.name ∨ name ∈ names ps := by
  rw [names_put]
  split
  next hmem => exact (or_iff_right_of_imp fun h => h ▸ hmem).symm
  next => rw [List.mem_append, List.mem_singleton, or_comm]

/-- Putting a parameter changes nothing under other names. -/
theorem values_put_of_ne (h : name ≠ p.name) : values (put p ps) name = values ps name := by
  induction ps with
  | nil => simp [put, values, h.symm]
  | cons q rest ih =>
    rw [values, values] at ih
    rw [put]
    split
    next heq => simp [values, heq, h.symm]
    next => by_cases hq : q.name = name <;> simp [values, hq, ih]

/-- Putting a parameter replaces the first value under its name. -/
theorem values_put (p : Parameter) (ps : List Parameter) :
    values (put p ps) p.name = p.value :: (values ps p.name).tail := by
  induction ps with
  | nil => simp [put, values]
  | cons q rest ih =>
    rw [values, values] at ih
    rw [put]
    split
    next heq => simp [values, heq]
    next hne => simp [values, hne, ih]

/-- A parameter under a free name is the only one there. -/
theorem values_put_of_not_mem (h : p.name ∉ names ps) : values (put p ps) p.name = [p.value] := by
  rw [values_put, values_eq_nil h, List.tail_nil]

end TypedSql.Parameters
