import TypedSql.Proofs.Numeral.DecimalText
import TypedSql.Proofs.Numeral.Widening

/-!
# Text of widened floats

A 32-bit float is written with the shortest digits of its own width, and with more of them when it
is widened first, unless its digits already tell the 64-bit float apart from its neighbours. That is
the case just when the text is read as the 64-bit float.
-/

namespace TypedSql.Numeral

open FloatFormat (wide narrow)

-- Powers are those of the core library, whatever else is imported.
attribute [local instance (high)] instPowNat

namespace Binary32

variable {x : Binary32} {negative : Bool} {significand : Nat} {power : Int}

/-- A finite 32-bit float is the same number as a 64-bit one with a finer last bit. -/
theorem exists_widened (hparts : x.parts = .finite negative significand power)
    (hpos : 0 < significand) : ∃ wideSignificand widePower,
      0 < wideSignificand ∧ wide.Fills wideSignificand widePower ∧
      wide.pack wideSignificand widePower < wide.infinity ∧
      (wideSignificand : ℚ) * 2 ^ widePower = significand * 2 ^ power ∧ widePower ≤ power - 2 ∧
      x.widen = .ofMagnitude negative (wide.pack wideSignificand widePower) := by
  obtain ⟨hsmall, hpower⟩ := classify_narrow hparts
  have hleast : -149 ≤ power := (FloatFormat.fills_of_classify hparts).least
  have hlog : Nat.log2 significand ≤ 23 := log2_le_of_lt hsmall
  have hloglow : 2 ^ Nat.log2 significand ≤ significand := Nat.log2_self_le hpos.ne'
  have hloghigh : significand < 2 ^ (Nat.log2 significand + 1) := Nat.lt_log2_self
  obtain ⟨j, hj⟩ : ∃ j, Nat.log2 significand + j = 52 := ⟨52 - Nat.log2 significand, by omega⟩
  have hlow : 2 ^ 52 ≤ significand * 2 ^ j := by
    rw [← hj, Nat.pow_add]
    exact Nat.mul_le_mul_right _ hloglow
  have hhigh : significand * 2 ^ j < 2 ^ 53 := by
    rw [show 53 = Nat.log2 significand + 1 + j by omega, Nat.pow_add]
    exact Nat.mul_lt_mul_of_pos_right hloghigh (Nat.two_pow_pos j)
  have hfills : wide.Fills (significand * 2 ^ j) (power - j) := by
    refine ⟨hhigh, ?_, .inl hlow⟩
    change (-1074 : Int) ≤ power - j
    omega
  have hfinite : wide.pack (significand * 2 ^ j) (power - j) < wide.infinity := by
    change (power - j - -1074).toNat * 4503599627370496 + _ < 9218868437227405312
    omega
  have hsame : ((significand * 2 ^ j : Nat) : ℚ) * 2 ^ (power - j) = significand * 2 ^ power := by
    rw [zpow_sub₀ two_ne_zero, zpow_natCast]
    push_cast
    field_simp
  refine ⟨significand * 2 ^ j, power - j, Nat.mul_pos hpos (Nat.two_pow_pos j), hfills, hfinite,
    hsame, by omega, ?_⟩
  have hself := wide.cell_self (significand * 2 ^ j) (power - j)
  rw [hsame] at hself
  rw [widen, hparts]
  exact (Binary64.ofScaled_eq_iff Nat.two_pos hpos hfills hfinite).mpr (by exact_mod_cast hself)

/-- A zero is widened to the zero of the same sign. -/
theorem widen_zero (hparts : x.parts = .finite negative 0 power) :
    x.widen = .ofMagnitude negative 0 := by
  rw [widen, hparts]
  dsimp only
  rw [Nat.zero_mul]
  split <;> rfl

/-- The text of a zero is read as the zero it is widened to. -/
theorem ofText?_text_of_isZero (h : x.isZero = true) : Binary64.ofText? x.text = some x.widen := by
  rw [isZero] at h
  split at h
  next negative significand power hparts =>
    obtain rfl : significand = 0 := eq_of_beq h
    rw [widen_zero hparts, text, hparts, Binary64.ofText?_zero]
  next => cases h

/-- A finite 32-bit float has the text of the 64-bit float it is widened to, just when its text is
read as that float. -/
theorem text_widen_iff (h : x.isFinite = true) :
    x.text = x.widen.text ↔ Binary64.ofText? x.text = some x.widen := by
  constructor
  · intro htext
    rw [htext]
    exact Binary64.ofText?_text (isFinite_widen h)
  · intro hread
    rw [isFinite] at h
    split at h
    next negative significand power hparts =>
      rcases Nat.eq_zero_or_pos significand with rfl | hpos
      · rw [widen_zero hparts, text, hparts, Binary64.text, Binary64.parts_zero]
        simp only [FloatLayout.text, if_pos]
      · obtain ⟨s, p, hs, hfills, hfinite, hsame, hfiner, hwiden⟩ := exists_widened hparts hpos
        have hsmall : significand < 2 ^ 53 := (classify_narrow hparts).1.trans (by decide)
        rw [text, hparts, hwiden,
          Binary64.ofText?_finite_iff _ _ hpos hsmall hfills hfinite] at hread
        have hshortest := FloatFormat.shortest_of_finer hpos hs hsame hfiner hread
        rw [text, hparts, hwiden, Binary64.text, Binary64.parts_ofMagnitude hfills hfinite]
        simp only [FloatLayout.text, hshortest, if_neg hpos.ne', if_neg hs.ne']
    next => cases h

end Binary32

end TypedSql.Numeral
