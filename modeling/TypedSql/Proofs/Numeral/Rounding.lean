import Mathlib.Algebra.Order.Field.Power
import Mathlib.Algebra.Order.Field.Rat
import Mathlib.Data.Nat.Cast.Order.Field
import Mathlib.Tactic.FieldSimp
import Mathlib.Tactic.Linarith
import Mathlib.Tactic.Positivity
import Mathlib.Tactic.Ring
import TypedSql.Numeral.Binary

/-!
# Rounding to the nearest float

The numbers that are rounded to a float make up its cell: half a bit to either side, a quarter below
the lower end of a binade, with the bounds where the significand is even. The nearest float to a
ratio is the one in whose cell the ratio lies. The bits of a float are packed from its significand
and its power of two.
-/

namespace TypedSql.Numeral

/-- Between two bounds, which count where the range is closed. -/
def Between (closed : Bool) (low x high : ℚ) : Prop :=
  low ≤ x ∧ x ≤ high ∧ (closed = false → low < x ∧ x < high)

/-- A number strictly between two bounds is between them, closed or not. -/
theorem Between.of_lt {closed : Bool} {low x high : ℚ} (hlow : low < x) (hhigh : x < high) :
    Between closed low x high := ⟨hlow.le, hhigh.le, fun _ => ⟨hlow, hhigh⟩⟩

/-- A range scaled by a positive number. -/
theorem between_mul_iff {closed : Bool} {low x high c : ℚ} (hc : 0 < c) :
    Between closed (low * c) (x * c) (high * c) ↔ Between closed low x high := by
  simp only [Between, mul_le_mul_iff_left₀ hc, mul_lt_mul_iff_left₀ hc]

/-! ## Rounding to an integer -/

/-- Half a unit around an integer, with the bounds where it is even. -/
def RoundsTo (x : ℚ) (n : Nat) : Prop := Between (n % 2 == 0) (n - 1 / 2) x (n + 1 / 2)

/-- Neighbours share a bound only, and one of them is odd. -/
theorem RoundsTo.not_succ {x : ℚ} {n : Nat} (h : RoundsTo x n) : ¬RoundsTo x (n + 1) := by
  rintro ⟨hlow', -, hodd'⟩
  obtain ⟨-, hhigh, hodd⟩ := h
  push_cast at hlow' hodd'
  by_cases heven : n % 2 = 0
  · have hstrict := (hodd' (beq_eq_false_iff_ne.mpr (by omega))).1
    linarith
  · have hstrict := (hodd (beq_eq_false_iff_ne.mpr heven)).2
    linarith

/-- A number is rounded to one integer only. -/
theorem RoundsTo.unique {x : ℚ} {n n' : Nat} (h : RoundsTo x n) (h' : RoundsTo x n') : n = n' := by
  have hlow : (n : ℚ) < (n' + 2 : Nat) := by push_cast; linarith [h.1, h'.2.1]
  have hhigh : (n' : ℚ) < (n + 2 : Nat) := by push_cast; linarith [h'.1, h.2.1]
  rw [Nat.cast_lt] at hlow hhigh
  rcases (by omega : n = n' ∨ n = n' + 1 ∨ n' = n + 1) with heq | rfl | rfl
  · exact heq
  · exact absurd h h'.not_succ
  · exact absurd h' h.not_succ

/-- The rounded quotient is the integer that the quotient is rounded to. -/
theorem roundsTo_roundDiv (num : Nat) {den : Nat} (hden : 0 < den) :
    RoundsTo (num / den) (roundDiv num den) := by
  have hpos : (0 : ℚ) < den := by exact_mod_cast hden
  have hdivision : (num : ℚ) = den * (num / den : Nat) + (num % den : Nat) := by
    exact_mod_cast (Nat.div_add_mod num den).symm
  have hquotient : (num : ℚ) / den = (num / den : Nat) + (num % den : Nat) / den := by
    field_simp
    linarith
  have hrest : (0 : ℚ) ≤ (num % den : Nat) / den := by positivity
  have hrest' : ((num % den : Nat) : ℚ) / den < 1 := by
    rw [div_lt_one hpos]
    exact_mod_cast Nat.mod_lt num hden
  unfold roundDiv
  extract_lets q r
  split
  next hlt =>
    have hhalf : (r : ℚ) / den < 1 / 2 := by
      rw [div_lt_iff₀ hpos]
      have : 2 * (r : ℚ) < den := by exact_mod_cast hlt
      linarith
    rw [hquotient]
    exact .of_lt (by linarith) (by linarith)
  next hge =>
    split
    next hgt =>
      have hhalf : 1 / 2 < (r : ℚ) / den := by
        rw [lt_div_iff₀ hpos]
        have : (den : ℚ) < 2 * r := by exact_mod_cast hgt
        linarith
      rw [hquotient]
      exact .of_lt (by push_cast; linarith) (by push_cast; linarith)
    next hle =>
      have hhalf : (r : ℚ) / den = 1 / 2 := by
        have : 2 * (r : ℚ) = den := by exact_mod_cast (by omega : 2 * r = den)
        rw [div_eq_iff hpos.ne']
        linarith
      rw [hquotient, hhalf]
      split
      next heven =>
        refine ⟨by linarith, by linarith, fun hodd => ?_⟩
        rw [beq_eq_false_iff_ne] at hodd
        exact absurd heven hodd
      next hodd =>
        refine ⟨by push_cast; linarith, by push_cast; linarith, fun h => ?_⟩
        rw [beq_eq_false_iff_ne] at h
        omega

/-! ## Powers of two -/

/-- The numerator of a power of two. -/
def numerator (power : Int) : Nat := if power < 0 then 1 else 2 ^ power.natAbs

/-- The denominator of a power of two. -/
def denominator (power : Int) : Nat := if power < 0 then 2 ^ power.natAbs else 1

theorem numerator_pos (power : Int) : 0 < numerator power := by
  unfold numerator
  split
  · exact Nat.one_pos
  · exact Nat.two_pow_pos _

theorem denominator_pos (power : Int) : 0 < denominator power := by
  unfold denominator
  split
  · exact Nat.two_pow_pos _
  · exact Nat.one_pos

/-- A power of two is a ratio of natural numbers. -/
theorem two_zpow (power : Int) : (2 : ℚ) ^ power = numerator power / denominator power := by
  unfold numerator denominator
  split
  next hneg =>
    obtain ⟨n, rfl⟩ : ∃ n : Nat, power = -n := ⟨power.natAbs, by omega⟩
    simp
  next hnonneg =>
    obtain ⟨n, rfl⟩ : ∃ n : Nat, power = n := ⟨power.natAbs, by omega⟩
    simp

/-- A ratio is below a power of two just when the power exceeds it on the side where it stands. -/
theorem lt_two_zpow_iff {num den : Nat} (hden : 0 < den) (power : Int) :
    (num : ℚ) / den < 2 ^ power ↔ num * denominator power < den * numerator power := by
  have hpos : (0 : ℚ) < den := by exact_mod_cast hden
  have hdenominator : (0 : ℚ) < denominator power := by exact_mod_cast denominator_pos power
  rw [two_zpow, div_lt_div_iff₀ hpos hdenominator, mul_comm (numerator power : ℚ)]
  exact_mod_cast Iff.rfl

/-- The binary logarithm of a ratio is known up to one from those of its parts. -/
theorem log2_bounds {num den : Nat} (hnum : 0 < num) (hden : 0 < den) :
    (2 : ℚ) ^ ((Nat.log2 num : Int) - Nat.log2 den - 1) ≤ num / den ∧
      (num : ℚ) / den < 2 ^ ((Nat.log2 num : Int) - Nat.log2 den + 1) := by
  have hpos : (0 : ℚ) < den := by exact_mod_cast hden
  have hnumle : (2 : ℚ) ^ Nat.log2 num ≤ num := by
    exact_mod_cast Nat.log2_self_le hnum.ne'
  have hnumlt : (num : ℚ) < 2 ^ (Nat.log2 num + 1) := by exact_mod_cast Nat.lt_log2_self
  have hdenle : (2 : ℚ) ^ Nat.log2 den ≤ den := by
    exact_mod_cast Nat.log2_self_le hden.ne'
  have hdenlt : (den : ℚ) < 2 ^ (Nat.log2 den + 1) := by exact_mod_cast Nat.lt_log2_self
  constructor
  · rw [le_div_iff₀ hpos]
    calc (2 : ℚ) ^ ((Nat.log2 num : Int) - Nat.log2 den - 1) * den
        ≤ 2 ^ ((Nat.log2 num : Int) - Nat.log2 den - 1) * 2 ^ (Nat.log2 den + 1) := by
          gcongr
      _ = 2 ^ Nat.log2 num := by
          rw [← zpow_natCast, ← zpow_natCast, ← zpow_add₀ two_ne_zero]
          congr 1
          push_cast
          ring
      _ ≤ num := hnumle
  · rw [div_lt_iff₀ hpos]
    calc (num : ℚ) < 2 ^ (Nat.log2 num + 1) := hnumlt
      _ = 2 ^ ((Nat.log2 num : Int) - Nat.log2 den + 1) * 2 ^ Nat.log2 den := by
          rw [← zpow_natCast, ← zpow_natCast, ← zpow_add₀ two_ne_zero]
          congr 1
          push_cast
          ring
      _ ≤ 2 ^ ((Nat.log2 num : Int) - Nat.log2 den + 1) * den := by gcongr

/-! ## Cells -/

namespace FloatFormat

variable (f : FloatFormat)

/-- The bits of a significand at a power of two, that carries into the exponent. -/
def pack (significand : Nat) (power : Int) : Nat :=
  (power - f.leastPower).toNat * 2 ^ f.fractionBits + significand

/-- A significand and a power of two as a float has them: the significand fills its field but at the
least power. -/
structure Fills (significand : Nat) (power : Int) : Prop where
  lt : significand < 2 ^ (f.fractionBits + 1)
  least : f.leastPower ≤ power
  filled : 2 ^ f.fractionBits ≤ significand ∨ power = f.leastPower

/-- The lower end of a binade, where the floats below lie twice as close. -/
def IsBinadeStart (significand : Nat) (power : Int) : Prop :=
  significand = 2 ^ f.fractionBits ∧ f.leastPower < power

instance (significand : Nat) (power : Int) : Decidable (f.IsBinadeStart significand power) :=
  inferInstanceAs (Decidable (_ ∧ _))

/-- The lower bound of a cell, in units of the last bit. -/
def cellLow (significand : Nat) (power : Int) : ℚ :=
  if f.IsBinadeStart significand power then significand - 1 / 4 else significand - 1 / 2

/-- The numbers that are rounded to a float. -/
def Cell (significand : Nat) (power : Int) (x : ℚ) : Prop :=
  Between (significand % 2 == 0) (f.cellLow significand power * 2 ^ power) x
    ((significand + 1 / 2) * 2 ^ power)

variable {f} {significand significand' : Nat} {power power' : Int} {x : ℚ}

/-- A cell in units of the last bit. -/
theorem cell_iff : f.Cell significand power x ↔ Between (significand % 2 == 0)
    (f.cellLow significand power) (x / 2 ^ power) (significand + 1 / 2) := by
  have hunit : (0 : ℚ) < 2 ^ power := by positivity
  rw [← between_mul_iff hunit, div_mul_cancel₀ _ hunit.ne']
  rfl

/-- A cell reaches at most half a bit down. -/
theorem le_cellLow (f : FloatFormat) (significand : Nat) (power : Int) :
    (significand : ℚ) - 1 / 2 ≤ f.cellLow significand power := by
  unfold cellLow
  split <;> linarith

/-- The bits tell the significand and the power. -/
theorem Fills.eq_of_pack (h : f.Fills significand power) (h' : f.Fills significand' power')
    (heq : f.pack significand power = f.pack significand' power') :
    significand = significand' ∧ power = power' := by
  -- the exponent field of the bits, which is zero only below the first binade
  have hfield {n : Nat} {q : Int} (hn : f.Fills n q) :
      f.pack n q / 2 ^ f.fractionBits = (q - f.leastPower).toNat + 1 ∨
        f.pack n q / 2 ^ f.fractionBits = 0 ∧ q = f.leastPower := by
    have hpos := Nat.two_pow_pos f.fractionBits
    obtain ⟨hlt, -, hfilled⟩ := hn
    rw [Nat.pow_succ] at hlt
    rw [pack, Nat.mul_comm, Nat.mul_add_div hpos]
    by_cases hfull : 2 ^ f.fractionBits ≤ n
    · have hone : n / 2 ^ f.fractionBits = 1 := Nat.div_eq_of_lt_le (by omega) (by omega)
      rw [hone]
      exact .inl rfl
    · right
      have hq := hfilled.resolve_left hfull
      rw [Nat.div_eq_of_lt (by omega), hq, Int.sub_self]
      exact ⟨rfl, rfl⟩
  have hpower : power = power' := by
    have hleast := h.least
    have hleast' := h'.least
    have hquotient := hfield h
    rw [heq] at hquotient
    rcases hquotient with hq | ⟨hq, hpower⟩ <;> rcases hfield h' with hq' | ⟨hq', hpower'⟩
    all_goals omega
  subst hpower
  exact ⟨Nat.add_left_cancel heq, rfl⟩

/-- A carry out of the significand moves on to the next power. -/
theorem pack_carry (h : f.leastPower ≤ power) :
    f.pack (2 ^ (f.fractionBits + 1)) power = f.pack (2 ^ f.fractionBits) (power + 1) := by
  have hnext : (power + 1 - f.leastPower).toNat = (power - f.leastPower).toNat + 1 := by omega
  rw [pack, pack, hnext, Nat.succ_mul, Nat.pow_succ]
  omega

/-- What a ratio is rounded to: its power is the one that fills the significand, but at least the
least, and its significand is that of the ratio in units of the power. -/
structure Rounding (f : FloatFormat) (x : ℚ) (significand : Nat) (power : Int) : Prop where
  least : f.leastPower ≤ power
  filled : 2 ^ f.fractionBits ≤ x / 2 ^ power ∨ power = f.leastPower
  lt : x / 2 ^ power < 2 ^ (f.fractionBits + 1)
  rounds : RoundsTo (x / 2 ^ power) significand

/-- The nearest float has the bits of the rounded ratio, unless they are out of range. -/
theorem exists_rounding {num den : Nat} (hnum : 0 < num) (hden : 0 < den) :
    ∃ significand power, f.Rounding (num / den) significand power ∧
      f.nearest num den = if f.pack significand power < f.infinity
        then f.pack significand power else f.infinity := by
  obtain ⟨hlog, hlog'⟩ := log2_bounds hnum hden
  have hlt (power : Int) : (if power < 0 then num * 2 ^ power.natAbs < den
      else num < den * 2 ^ power.natAbs) ↔ (num : ℚ) / den < 2 ^ power := by
    rw [lt_two_zpow_iff hden, numerator, denominator]
    split <;> simp
  have hround (power : Int) : RoundsTo (num / den / 2 ^ power)
      (if power < 0 then roundDiv (num * 2 ^ power.natAbs) den
        else roundDiv num (den * 2 ^ power.natAbs)) := by
    rw [two_zpow, numerator, denominator]
    split
    next =>
      have := roundsTo_roundDiv (num * 2 ^ power.natAbs) hden
      push_cast at this ⊢
      rwa [one_div, div_inv_eq_mul, div_mul_eq_mul_div]
    next =>
      have := roundsTo_roundDiv num (Nat.mul_pos hden (Nat.two_pow_pos power.natAbs))
      push_cast at this ⊢
      rwa [div_one, div_div]
  rw [nearest, if_neg hnum.ne']
  extract_lets guess tooLarge exponent power significand bits
  have hexponent : (2 : ℚ) ^ exponent ≤ num / den ∧ (num : ℚ) / den < 2 ^ (exponent + 1) := by
    by_cases hlarge : tooLarge
    · rw [show exponent = guess - 1 from if_pos hlarge, sub_add_cancel]
      exact ⟨hlog, (hlt guess).mp hlarge⟩
    · rw [show exponent = guess from if_neg hlarge]
      exact ⟨not_lt.mp fun h => hlarge ((hlt guess).mpr h), hlog'⟩
  refine ⟨significand, power, ⟨le_max_left _ _, ?_, ?_, hround power⟩, rfl⟩
  · rcases max_choice f.leastPower (exponent - f.fractionBits) with hleast | hfull
    · exact .inr hleast
    · left
      rw [show power = exponent - f.fractionBits from hfull, le_div_iff₀ (by positivity),
        ← zpow_natCast, ← zpow_add₀ two_ne_zero, add_sub_cancel]
      exact hexponent.1
  · have hpower : exponent + 1 ≤ (f.fractionBits + 1 : Nat) + power := by
      have := le_max_right f.leastPower (exponent - f.fractionBits)
      change exponent - f.fractionBits ≤ power at this
      push_cast
      omega
    rw [div_lt_iff₀ (by positivity), ← zpow_natCast, ← zpow_add₀ two_ne_zero]
    exact hexponent.2.trans_le (zpow_le_zpow_right₀ one_le_two hpower)

/-- A ratio lies in the cell of what it is rounded to. -/
theorem Rounding.cell {n : Nat} {q : Int} (h : f.Rounding x n q) (hfraction : 0 < f.fractionBits)
    (hfills : f.Fills significand power) (hpack : f.pack n q = f.pack significand power) :
    f.Cell significand power x := by
  obtain ⟨hleast, hfilled, hlt, hlow, hhigh, hodd⟩ := h
  have hcarry : (2 : ℚ) ^ (f.fractionBits + 1) = 2 * 2 ^ f.fractionBits := pow_succ' _ _
  have hle : n ≤ 2 ^ (f.fractionBits + 1) := by
    have : (n : ℚ) < (2 ^ (f.fractionBits + 1) + 1 : Nat) := by push_cast; linarith
    exact Nat.lt_succ_iff.mp (Nat.cast_lt.mp this)
  rw [cell_iff]
  rcases hle.lt_or_eq with hsmall | rfl
  · have hfills' : f.Fills n q := by
      refine ⟨hsmall, hleast, hfilled.imp_left fun hfull => ?_⟩
      have : ((2 ^ f.fractionBits : Nat) : ℚ) < (n + 1 : Nat) := by push_cast; linarith
      exact Nat.lt_succ_iff.mp (Nat.cast_lt.mp this)
    obtain ⟨rfl, rfl⟩ := hfills'.eq_of_pack hfills hpack
    by_cases hstart : f.IsBinadeStart n q
    · have hfull : (n : ℚ) ≤ x / 2 ^ q := by
        rw [hstart.1]
        push_cast
        exact hfilled.resolve_right hstart.2.ne'
      rw [cellLow, if_pos hstart]
      exact ⟨by linarith, hhigh, fun h => ⟨by linarith, (hodd h).2⟩⟩
    · rw [cellLow, if_neg hstart]
      exact ⟨hlow, hhigh, hodd⟩
  · have hstart : f.Fills (2 ^ f.fractionBits) (q + 1) :=
      ⟨Nat.pow_lt_pow_succ Nat.one_lt_two, by omega, .inl le_rfl⟩
    rw [pack_carry hleast] at hpack
    obtain ⟨rfl, rfl⟩ := hstart.eq_of_pack hfills hpack
    have heven : 2 ^ f.fractionBits % 2 = 0 := by
      rw [← Nat.succ_pred_eq_of_pos hfraction, Nat.pow_succ]
      omega
    have hhalf : x / 2 ^ (q + 1) = x / 2 ^ q / 2 := by
      rw [zpow_add_one₀ two_ne_zero, div_mul_eq_div_div]
    rw [cellLow, if_pos ⟨rfl, by omega⟩, hhalf]
    push_cast at hlow ⊢
    refine ⟨by linarith, by linarith, fun h => ?_⟩
    simp [heven] at h

/-- A number in units of another power. -/
theorem div_two_zpow (x : ℚ) (q power : Int) :
    x / 2 ^ q = x / 2 ^ power * 2 ^ (power - q) := by
  rw [zpow_sub₀ two_ne_zero, div_mul_div_cancel₀ (by positivity)]

/-- A ratio in the cell of a float is rounded at no higher power. -/
theorem Rounding.power_le {n : Nat} {q : Int} (h : f.Rounding x n q)
    (hfills : f.Fills significand power) (hcell : f.Cell significand power x) : q ≤ power := by
  by_contra habove
  have hleast := hfills.least
  have hfull : (2 : ℚ) ^ f.fractionBits ≤ x / 2 ^ q := h.filled.resolve_right (by omega)
  have hcarry : (2 : ℚ) ^ (f.fractionBits + 1) = 2 * 2 ^ f.fractionBits := pow_succ' _ _
  have hsignificand : (significand : ℚ) + 1 ≤ 2 ^ (f.fractionBits + 1) := by
    exact_mod_cast Nat.succ_le_of_lt hfills.lt
  have hhalf : (2 : ℚ) ^ (power - q) ≤ 2 ^ (-1 : Int) :=
    zpow_le_zpow_right₀ one_le_two (by omega)
  have hsmall : x / 2 ^ q ≤ (significand + 1 / 2) * 2 ^ (-1 : Int) := by
    rw [div_two_zpow x q power]
    exact mul_le_mul (cell_iff.mp hcell).2.1 hhalf (by positivity) (by positivity)
  rw [zpow_neg_one] at hsmall
  linarith

/-- Only the lowest cell of a binade reaches into the binade below. -/
theorem Rounding.isBinadeStart_of_lt {n : Nat} {q : Int} (h : f.Rounding x n q)
    (hfills : f.Fills significand power) (hcell : f.Cell significand power x) (hbelow : q < power) :
    f.IsBinadeStart significand power ∧ power = q + 1 := by
  have hleast := h.least
  have hlt := h.lt
  have hcarry : (2 : ℚ) ^ (f.fractionBits + 1) = 2 * 2 ^ f.fractionBits := pow_succ' _ _
  have hone : (1 : ℚ) ≤ 2 ^ f.fractionBits := one_le_pow₀ one_le_two
  have hfull : (2 : ℚ) ^ f.fractionBits ≤ significand := by
    exact_mod_cast hfills.filled.resolve_right (by omega)
  have hlow : (significand : ℚ) - 1 / 2 ≤ x / 2 ^ power :=
    (f.le_cellLow significand power).trans (cell_iff.mp hcell).1
  rcases (by omega : power = q + 1 ∨ q + 2 ≤ power) with rfl | hfar
  · refine ⟨⟨?_, by omega⟩, rfl⟩
    rw [div_two_zpow x q (q + 1), add_sub_cancel_left, zpow_one] at hlt
    have : (significand : ℚ) < (2 ^ f.fractionBits + 1 : Nat) := by push_cast; linarith
    exact le_antisymm (Nat.lt_succ_iff.mp (Nat.cast_lt.mp this)) (by exact_mod_cast hfull)
  · have hquadruple : (2 : ℚ) ^ (2 : Int) ≤ 2 ^ (power - q) :=
      zpow_le_zpow_right₀ one_le_two (by omega)
    have hlarge : ((2 : ℚ) ^ f.fractionBits - 1 / 2) * 2 ^ (2 : Int) ≤ x / 2 ^ q := by
      rw [div_two_zpow x q power]
      exact mul_le_mul (by linarith) hquadruple (by positivity) (by linarith)
    rw [zpow_ofNat] at hlarge
    linarith

/-- A ratio in the cell of a float is rounded to it. -/
theorem Rounding.pack_eq {n : Nat} {q : Int} (h : f.Rounding x n q)
    (hfills : f.Fills significand power) (hcell : f.Cell significand power x) :
    f.pack n q = f.pack significand power := by
  obtain ⟨hlow, hhigh, hodd⟩ := cell_iff.mp hcell
  rcases (h.power_le hfills hcell).lt_or_eq with hbelow | rfl
  · -- the significand is rounded up to a carry
    obtain ⟨hstart, rfl⟩ := h.isBinadeStart_of_lt hfills hcell hbelow
    have hcarry : RoundsTo (x / 2 ^ q) (2 ^ (f.fractionBits + 1)) := by
      have hlt := h.lt
      rw [cellLow, if_pos hstart, hstart.1] at hlow
      rw [div_two_zpow x q (q + 1), add_sub_cancel_left, zpow_one] at hlt ⊢
      rw [pow_succ'] at hlt
      push_cast at hlow
      refine ⟨by push_cast [pow_succ']; linarith, by push_cast [pow_succ']; linarith, fun h => ?_⟩
      simp [Nat.pow_succ] at h
    rw [h.rounds.unique hcarry, hstart.1, pack_carry h.least]
  · have hbounds := f.le_cellLow significand q
    rw [h.rounds.unique ⟨by linarith, hhigh, fun h => ⟨by linarith [(hodd h).1], (hodd h).2⟩⟩]

/-- The nearest float to a ratio is the one in whose cell the ratio lies. -/
theorem nearest_eq_pack_iff {num den : Nat} (hnum : 0 < num) (hden : 0 < den)
    (hfraction : 0 < f.fractionBits) (hfills : f.Fills significand power)
    (hfinite : f.pack significand power < f.infinity) :
    f.nearest num den = f.pack significand power ↔ f.Cell significand power (num / den) := by
  obtain ⟨n, q, hrounding, hnearest⟩ := exists_rounding (f := f) hnum hden
  rw [hnearest]
  constructor
  · intro heq
    split at heq
    · exact hrounding.cell hfraction hfills heq
    · omega
  · intro hcell
    rw [hrounding.pack_eq hfills hcell, if_pos hfinite]

/-- A float lies in its own cell. -/
theorem cell_self (significand : Nat) (power : Int) :
    f.Cell significand power (significand * 2 ^ power) := by
  have hunit : (0 : ℚ) < 2 ^ power := by positivity
  refine .of_lt (mul_lt_mul_of_pos_right ?_ hunit) (mul_lt_mul_of_pos_right (by linarith) hunit)
  unfold cellLow
  split <;> linarith

/-- The significand of a float fills its field. -/
theorem fills_of_classify {bits : Nat} {negative : Bool}
    (h : f.classify bits = .finite negative significand power) : f.Fills significand power := by
  have hpos := Nat.two_pow_pos f.fractionBits
  unfold classify at h
  extract_lets sign field fraction at h
  have hfraction : fraction < 2 ^ f.fractionBits := Nat.mod_lt _ hpos
  split at h
  · split at h <;> simp at h
  · split at h
    · obtain ⟨-, rfl, rfl⟩ := FloatClass.finite.inj h
      exact ⟨by rw [Nat.pow_succ]; omega, le_rfl, .inr rfl⟩
    · obtain ⟨-, rfl, rfl⟩ := FloatClass.finite.inj h
      exact ⟨by rw [Nat.pow_succ]; omega, by omega, .inl (Nat.le_add_right _ _)⟩

end FloatFormat

/-! ## Bits of 64-bit floats -/

namespace Binary64

open FloatFormat (wide)

variable {negative : Bool} {significand : Nat} {power : Int}

/-- A magnitude within the range of floats is told by the bits. -/
theorem ofMagnitude_injective {negative : Bool} {a b : Nat} (ha : a ≤ wide.infinity)
    (hb : b ≤ wide.infinity) (h : ofMagnitude negative a = ofMagnitude negative b) : a = b := by
  have htop : wide.infinity = 9218868437227405312 := rfl
  have hsign : wide.signBit = 9223372036854775808 := rfl
  have hbits := congrArg (fun x : Binary64 => x.bits.toNat) h
  simp only [ofMagnitude, hsign] at hbits
  cases negative
  · simp at hbits
    omega
  · simp at hbits
    omega

theorem nearest_le_infinity (f : FloatFormat) (num den : Nat) : f.nearest num den ≤ f.infinity := by
  unfold FloatFormat.nearest
  extract_lets
  split
  · exact Nat.zero_le _
  · split
    next h => exact h.le
    next => exact le_rfl

/-- A positive ratio is rounded to the float in whose cell it lies. -/
theorem ofRatio_eq_iff {num den : Nat} (hnum : 0 < num) (hden : 0 < den)
    (hfills : wide.Fills significand power)
    (hfinite : wide.pack significand power < wide.infinity) :
    ofRatio negative num den = ofMagnitude negative (wide.pack significand power) ↔
      wide.Cell significand power (num / den) := by
  rw [← FloatFormat.nearest_eq_pack_iff hnum hden (by decide) hfills hfinite, ofRatio]
  constructor
  · exact ofMagnitude_injective (nearest_le_infinity _ _ _) hfinite.le
  · intro h
    rw [h]

/-- Bits below those of infinity are taken apart into what they were packed from. -/
theorem parts_ofMagnitude (hfills : wide.Fills significand power)
    (hfinite : wide.pack significand power < wide.infinity) :
    (ofMagnitude negative (wide.pack significand power)).parts =
      .finite negative significand power := by
  obtain ⟨hlt, hleast, hfilled⟩ := hfills
  obtain ⟨a, rfl⟩ : ∃ a : Nat, power = wide.leastPower + a :=
    ⟨(power - wide.leastPower).toNat, by omega⟩
  have hpack : wide.pack significand (wide.leastPower + a) =
      a * 4503599627370496 + significand := by
    rw [FloatFormat.pack, add_sub_cancel_left, Int.toNat_natCast]
    rfl
  have hfilled' : 4503599627370496 ≤ significand ∨ a = 0 := hfilled.imp id (by omega)
  change significand < 9007199254740992 at hlt
  rw [hpack] at hfinite ⊢
  change _ < 9218868437227405312 at hfinite
  have hbits : (ofMagnitude negative (a * 4503599627370496 + significand)).bits.toNat =
      (if negative then 9223372036854775808 else 0) + (a * 4503599627370496 + significand) := by
    rw [ofMagnitude]
    cases negative <;> simp [FloatFormat.signBit, wide] <;> omega
  rw [parts, hbits]
  unfold FloatFormat.classify
  extract_lets sign field fraction
  have hsign : sign = negative := by
    change (_ / 9223372036854775808 % 2 == 1) = negative
    cases negative <;> simp <;> omega
  have hfield : field = (a * 4503599627370496 + significand) / 4503599627370496 := by
    change _ / 4503599627370496 % 2048 = _
    split <;> omega
  have hfraction : fraction = significand % 4503599627370496 := by
    change _ % 4503599627370496 = _
    split <;> omega
  have htop : field ≠ wide.topExponent := by
    change field ≠ 2047
    omega
  rw [if_neg htop, hsign]
  split
  next hzero =>
    rw [hfraction, Nat.mod_eq_of_lt (by omega), show a = 0 by omega]
    simp
  next hpositive =>
    have hsignificand : 2 ^ wide.fractionBits + fraction = significand := by
      change 4503599627370496 + fraction = significand
      omega
    rw [hsignificand, show field - 1 = a by omega]

/-- A zero is taken apart. -/
theorem parts_zero (negative : Bool) :
    (ofMagnitude negative 0).parts = .finite negative 0 wide.leastPower := by
  cases negative <;> rfl

/-- A finite float is packed from its parts. -/
theorem eq_ofMagnitude {x : Binary64} (h : x.parts = .finite negative significand power) :
    wide.pack significand power < wide.infinity ∧
      x = ofMagnitude negative (wide.pack significand power) := by
  obtain ⟨bits⟩ := x
  have hbits : bits.toNat < 18446744073709551616 := bits.toNat_lt
  have hsign : wide.signBit = 9223372036854775808 := rfl
  rw [parts] at h
  unfold FloatFormat.classify at h
  extract_lets sign field fraction at h
  have hfield : field = bits.toNat / 4503599627370496 % 2048 := rfl
  have hfraction : fraction = bits.toNat % 4503599627370496 := rfl
  split at h
  · split at h <;> cases h
  next htop =>
    change field ≠ 2047 at htop
    have hpack : wide.pack significand power = field * 4503599627370496 + fraction := by
      split at h
      next hzero =>
        obtain ⟨-, rfl, rfl⟩ := FloatClass.finite.inj h
        rw [FloatFormat.pack, Int.sub_self, hzero]
        rfl
      next hpositive =>
        obtain ⟨-, rfl, rfl⟩ := FloatClass.finite.inj h
        rw [FloatFormat.pack, add_sub_cancel_left, Int.toNat_natCast]
        change (field - 1) * 4503599627370496 + (4503599627370496 + fraction) = _
        omega
    have hnegative : bits.toNat / 9223372036854775808 % 2 = if negative then 1 else 0 := by
      have hsame : sign = negative := by split at h <;> exact (FloatClass.finite.inj h).1
      change (bits.toNat / 9223372036854775808 % 2 == 1) = negative at hsame
      split
      next hset => exact beq_iff_eq.mp (hsame.trans hset)
      next hset =>
        have := beq_eq_false_iff_ne.mp (hsame.trans (Bool.eq_false_of_not_eq_true hset))
        omega
    rw [hpack]
    constructor
    · change _ < 9218868437227405312
      omega
    · rw [ofMagnitude, hsign]
      congr 1
      rw [← UInt64.toNat_inj, UInt64.toNat_ofNat']
      split
      next hset =>
        rw [if_pos hset] at hnegative
        omega
      next hset =>
        rw [if_neg hset] at hnegative
        omega

end Binary64

end TypedSql.Numeral
