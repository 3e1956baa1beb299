import Mathlib.Algebra.Group.Nat.Defs
import TypedSql.Numeral.Binary

/-!
# Widening floats

A finite 32-bit float stays finite as a 64-bit one: the wide format has exponents to spare, so the
nearest float to a number below `2 ^ 128` is far from infinity.
-/

namespace TypedSql.Numeral

/-- A rounded quotient is at most one more than the bound of the quotient. -/
theorem roundDiv_le {num den bound : Nat} (h : num < bound * den) : roundDiv num den ≤ bound := by
  have hquotient : num / den < bound := Nat.div_lt_of_lt_mul (by rwa [Nat.mul_comm])
  unfold roundDiv
  dsimp only
  split
  · omega
  · split
    · omega
    · split <;> omega

/-- The significand of the nearest wide float fits its field with room to spare. -/
theorem scaled_le {num den : Nat} {power : Int} (hden : den ≠ 0)
    (hpower : (Nat.log2 num : Int) - Nat.log2 den ≤ power + 53) :
    (if power < 0 then roundDiv (num * 2 ^ power.natAbs) den
      else roundDiv num (den * 2 ^ power.natAbs)) ≤ 2 ^ 54 := by
  have hnumlt : num < 2 ^ (Nat.log2 num + 1) := Nat.lt_log2_self
  have hdenle : 2 ^ Nat.log2 den ≤ den := Nat.log2_self_le hden
  split
  next hneg =>
    refine roundDiv_le ?_
    calc num * 2 ^ power.natAbs
        < 2 ^ (Nat.log2 num + 1) * 2 ^ power.natAbs :=
          Nat.mul_lt_mul_of_pos_right hnumlt (Nat.two_pow_pos _)
      _ = 2 ^ (Nat.log2 num + 1 + power.natAbs) := (Nat.pow_add ..).symm
      _ ≤ 2 ^ (54 + Nat.log2 den) := Nat.pow_le_pow_right (by decide) (by omega)
      _ = 2 ^ 54 * 2 ^ Nat.log2 den := Nat.pow_add ..
      _ ≤ 2 ^ 54 * den := Nat.mul_le_mul_left _ hdenle
  next hpos =>
    refine roundDiv_le ?_
    calc num < 2 ^ (Nat.log2 num + 1) := hnumlt
      _ ≤ 2 ^ (54 + Nat.log2 den + power.natAbs) := Nat.pow_le_pow_right (by decide) (by omega)
      _ = 2 ^ 54 * (2 ^ Nat.log2 den * 2 ^ power.natAbs) := by
          rw [Nat.pow_add, Nat.pow_add, Nat.mul_assoc]
      _ ≤ 2 ^ 54 * (den * 2 ^ power.natAbs) :=
          Nat.mul_le_mul_left _ (Nat.mul_le_mul_right _ hdenle)

/-- A ratio below `2 ^ 128` has a finite wide float nearest to it. -/
theorem nearest_lt_infinity {num den : Nat} (hden : den ≠ 0)
    (h : Nat.log2 num ≤ Nat.log2 den + 127) :
    FloatFormat.wide.nearest num den < FloatFormat.wide.infinity := by
  unfold FloatFormat.nearest
  extract_lets guess tooLarge exponent power significand bits
  split
  · decide
  · have hexponent : guess - 1 ≤ exponent ∧ exponent ≤ guess := by
      simp only [exponent]
      split <;> omega
    have hguess : guess ≤ 127 := by omega
    have hpower : guess ≤ power + 53 ∧ power - FloatFormat.wide.leastPower ≤ 1149 := by
      simp only [power, FloatFormat.leastPower, FloatFormat.wide]
      omega
    have hsignificand : significand ≤ 2 ^ 54 := scaled_le hden hpower.1
    have hbits : bits < FloatFormat.wide.infinity := by
      simp only [bits, FloatFormat.infinity, FloatFormat.topExponent]
      simp only [FloatFormat.wide] at hpower ⊢
      omega
    rw [if_pos hbits]
    exact hbits

/-- Bits with another exponent field than the topmost stand for a finite float. -/
theorem classify_of_ne_top {f : FloatFormat} {bits : Nat}
    (h : bits / 2 ^ f.fractionBits % 2 ^ f.exponentBits ≠ f.topExponent) :
    ∃ negative significand power, f.classify bits = .finite negative significand power := by
  rw [FloatFormat.classify, if_neg h]
  split <;> exact ⟨_, _, _, rfl⟩

/-- A wide float of a magnitude below infinity is finite. -/
theorem isFinite_ofMagnitude {negative : Bool} {magnitude : Nat}
    (h : magnitude < FloatFormat.wide.infinity) :
    (Binary64.ofMagnitude negative magnitude).isFinite = true := by
  have hmagnitude : magnitude < 2047 * 2 ^ 52 := h
  have hfield : (Binary64.ofMagnitude negative magnitude).bits.toNat /
      2 ^ FloatFormat.wide.fractionBits % 2 ^ FloatFormat.wide.exponentBits ≠
        FloatFormat.wide.topExponent := by
    cases negative <;>
      simp [Binary64.ofMagnitude, FloatFormat.signBit, FloatFormat.topExponent,
        FloatFormat.wide] <;>
      omega
  obtain ⟨sign, significand, power, hclass⟩ := classify_of_ne_top hfield
  rw [Binary64.isFinite, Binary64.parts, hclass]

/-- The logarithm of a number below a power of two. -/
theorem log2_le_of_lt {n k : Nat} (h : n < 2 ^ (k + 1)) : Nat.log2 n ≤ k := by
  by_cases hn : n = 0
  · subst hn
    exact Nat.zero_le k
  · exact Nat.lt_succ_iff.mp ((Nat.log2_lt hn).mpr h)

/-- The parts of a finite 32-bit float are small. -/
theorem classify_narrow {bits : Nat} {negative : Bool} {significand : Nat} {power : Int}
    (h : FloatFormat.narrow.classify bits = .finite negative significand power) :
    significand < 2 ^ 24 ∧ power ≤ 104 := by
  unfold FloatFormat.classify at h
  extract_lets sign field fraction at h
  have hfield : field < 2 ^ 8 := Nat.mod_lt _ (by decide)
  have hfraction : fraction < 2 ^ 23 := Nat.mod_lt _ (by decide)
  split at h
  · split at h <;> simp at h
  next htop =>
    have hne : field ≠ 255 := htop
    split at h
    · obtain ⟨-, rfl, rfl⟩ := FloatClass.finite.inj h
      exact ⟨by omega, by decide⟩
    · obtain ⟨-, rfl, rfl⟩ := FloatClass.finite.inj h
      simp only [FloatFormat.leastPower, FloatFormat.narrow]
      omega

namespace Binary32

/-- Widening keeps finite floats finite. -/
theorem isFinite_widen {x : Binary32} (h : x.isFinite = true) : x.widen.isFinite = true := by
  rw [isFinite] at h
  rw [widen]
  cases hparts : x.parts with
  | nan => simp [hparts] at h
  | infinite negative => simp [hparts] at h
  | finite negative significand power =>
    obtain ⟨hsignificand, hpower⟩ := classify_narrow hparts
    dsimp only
    split
    · refine isFinite_ofMagnitude (nearest_lt_infinity (Nat.ne_of_gt (Nat.two_pow_pos _)) ?_)
      have hlog : Nat.log2 significand ≤ 23 := log2_le_of_lt hsignificand
      omega
    · refine isFinite_ofMagnitude (nearest_lt_infinity Nat.one_ne_zero ?_)
      have hnum : significand * 2 ^ power.natAbs < 2 ^ 24 * 2 ^ 104 :=
        Nat.mul_lt_mul_of_lt_of_le hsignificand
          (Nat.pow_le_pow_right (by decide) (by omega)) (Nat.two_pow_pos _)
      exact Nat.le_trans (log2_le_of_lt hnum) (Nat.le_add_left _ _)

end Binary32

end TypedSql.Numeral
