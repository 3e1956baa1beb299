import Mathlib.Algebra.Order.Floor.Semifield
import Mathlib.Data.Rat.Floor
import TypedSql.Numeral.Shortest
import TypedSql.Proofs.Numeral.Rounding

/-!
# Shortest digits

The digits of a float are the first point of a decimal grid in its cell, on grids that get finer
until there is one. They depend on the number and on its cell alone, so a float of a narrow format
and the same number in a wide one, whose cell is smaller, have the same digits just when those of the
narrow one lie in the cell of the wide one.
-/

namespace TypedSql.Numeral

/-! ## Points of a grid -/

/-- Whether a bound is kept, by the bound itself only where it counts. -/
def Admits (closed : Bool) (a b : ℚ) : Prop := if closed then a ≤ b else a < b

instance (closed : Bool) (a b : ℚ) : Decidable (Admits closed a b) := by
  unfold Admits
  infer_instance

/-- A number lies between two bounds when it keeps both. -/
theorem between_iff_admits {closed : Bool} {low x high : ℚ} :
    Between closed low x high ↔ Admits closed low x ∧ Admits closed x high := by
  unfold Between Admits
  cases closed
  · simp only [Bool.false_eq_true, if_false, forall_const]
    exact ⟨fun h => h.2.2, fun h => ⟨h.1.le, h.2.le, h⟩⟩
  · simp

/-- The nearer of the two whole numbers next to a number. -/
def nearer (tie : TieRule) (x : ℚ) : Nat :=
  if 2 * x < ⌊x⌋₊ + (⌊x⌋₊ + 1) then ⌊x⌋₊
  else if 2 * x > ⌊x⌋₊ + (⌊x⌋₊ + 1) then ⌊x⌋₊ + 1
  else match tie with
    | .away => ⌊x⌋₊ + 1
    | .toEven => if ⌊x⌋₊ % 2 = 0 then ⌊x⌋₊ else ⌊x⌋₊ + 1

theorem nearer_cases (tie : TieRule) (x : ℚ) : nearer tie x = ⌊x⌋₊ ∨ nearer tie x = ⌊x⌋₊ + 1 := by
  unfold nearer
  cases tie <;> dsimp only <;> split_ifs <;> simp

/-- The whole number next to a number that lies in its cell, the nearer one if both do. -/
def gridPoint? (tie : TieRule) (closed : Bool) (low x high : ℚ) : Option Nat :=
  if Admits closed low ⌊x⌋₊ then
    if Admits closed (⌊x⌋₊ + 1 : Nat) high then some (nearer tie x) else some ⌊x⌋₊
  else if Admits closed (⌊x⌋₊ + 1 : Nat) high then some (⌊x⌋₊ + 1)
  else none

/-- A grid is searched by its whole numbers. -/
theorem gridHit?_eq (tie : TieRule) (value low high : Nat) (closed : Bool) {scaleUp scaleDown : Nat}
    (h : 0 < scaleDown) : gridHit? tie value low high closed scaleUp scaleDown =
      gridPoint? tie closed (low * scaleUp / scaleDown) (value * scaleUp / scaleDown)
        (high * scaleUp / scaleDown) := by
  have hpos : (0 : ℚ) < scaleDown := by exact_mod_cast h
  have hfloor : ⌊(value * scaleUp / scaleDown : ℚ)⌋₊ = value * scaleUp / scaleDown := by
    rw [← Nat.floor_div_eq_div (K := ℚ)]
    push_cast
    rfl
  have hlow (n : Nat) : (if closed = true then low * scaleUp ≤ n * scaleDown
      else low * scaleUp < n * scaleDown) ↔ Admits closed (low * scaleUp / scaleDown) n := by
    rw [Admits, div_le_iff₀ hpos, div_lt_iff₀ hpos]
    norm_cast
  have hhigh (n : Nat) : (if closed = true then (n + 1) * scaleDown ≤ high * scaleUp
      else (n + 1) * scaleDown < high * scaleUp) ↔
        Admits closed (n + 1 : Nat) (high * scaleUp / scaleDown) := by
    rw [Admits, le_div_iff₀ hpos, lt_div_iff₀ hpos]
    norm_cast
  have hbelow (n : Nat) : 2 * (value * scaleUp) < (n + (n + 1)) * scaleDown ↔
      2 * (value * scaleUp / scaleDown : ℚ) < n + (n + 1) := by
    rw [mul_div_assoc', div_lt_iff₀ hpos]
    norm_cast
  have habove (n : Nat) : 2 * (value * scaleUp) > (n + (n + 1)) * scaleDown ↔
      2 * (value * scaleUp / scaleDown : ℚ) > n + (n + 1) := by
    rw [gt_iff_lt, gt_iff_lt, mul_div_assoc', lt_div_iff₀ hpos]
    norm_cast
  simp only [gridHit?, gridPoint?, nearer, hfloor, hlow, hhigh, hbelow, habove]
  generalize value * scaleUp / scaleDown = n
  by_cases hlow : Admits closed (low * scaleUp / scaleDown) n
  · by_cases hhigh : Admits closed (n + 1 : Nat) (high * scaleUp / scaleDown)
    · simp only [hlow, hhigh, decide_true, if_true]
      cases tie <;> dsimp only <;> split_ifs <;> rfl
    · simp only [hlow, hhigh, decide_true, decide_false, if_true, if_false]
  · by_cases hhigh : Admits closed (n + 1 : Nat) (high * scaleUp / scaleDown)
    · simp only [hlow, hhigh, decide_true, decide_false, if_true, if_false]
    · simp only [hlow, hhigh, decide_false, if_false]

section GridPoint

variable {tie : TieRule} {closed closed' : Bool} {low low' x high high' : ℚ} {d : Nat}

theorem Admits.le {a b : ℚ} (h : Admits closed a b) : a ≤ b := by
  unfold Admits at h
  split at h
  · exact h
  · exact h.le

theorem Admits.of_lt {a b : ℚ} (h : a < b) : Admits closed a b := by
  unfold Admits
  split
  · exact h.le
  · exact h

/-- There is no point when neither neighbour lies in the cell. -/
theorem gridPoint?_eq_none_iff : gridPoint? tie closed low x high = none ↔
    ¬Admits closed low ⌊x⌋₊ ∧ ¬Admits closed (⌊x⌋₊ + 1 : Nat) high := by
  unfold gridPoint?
  split_ifs <;> simp_all

/-- A point lies in the cell of a number. -/
theorem between_of_gridPoint? (h : gridPoint? tie closed low x high = some d) (hx : 0 ≤ x)
    (hlow : low < x) (hhigh : x < high) : Between closed low d high := by
  have hbelow : Admits closed (⌊x⌋₊ : Nat) high := .of_lt ((Nat.floor_le hx).trans_lt hhigh)
  have habove : Admits closed low (⌊x⌋₊ + 1 : Nat) := by
    refine .of_lt (hlow.trans ?_)
    push_cast
    exact Nat.lt_floor_add_one x
  rw [between_iff_admits]
  unfold gridPoint? at h
  split_ifs at h with hlow' hhigh' hhigh'
  · cases h
    rcases nearer_cases tie x with hd | hd <;> rw [hd]
    · exact ⟨hlow', hbelow⟩
    · exact ⟨habove, hhigh'⟩
  · cases h
    exact ⟨hlow', hbelow⟩
  · cases h
    exact ⟨habove, hhigh'⟩

/-- In a smaller cell there is the point of the larger one, if it lies there. -/
theorem gridPoint?_of_smaller (hlow : low < low') (hhigh : high' < high)
    (h : gridPoint? tie closed low x high = some d) (hd : Between closed' low' d high') :
    gridPoint? tie closed' low' x high' = some d := by
  obtain ⟨hdlow, hdhigh⟩ := between_iff_admits.mp hd
  have hlow' {b : ℚ} (hb : Admits closed' low' b) : Admits closed low b :=
    .of_lt (hlow.trans_le hb.le)
  have hhigh' {b : ℚ} (hb : Admits closed' b high') : Admits closed b high :=
    .of_lt (hb.le.trans_lt hhigh)
  unfold gridPoint? at h ⊢
  split_ifs at h with hbelow habove habove
  · cases h
    rcases nearer_cases tie x with heq | heq
    · rw [heq] at hdlow ⊢
      rw [if_pos hdlow, ite_self]
    · rw [heq] at hdhigh ⊢
      rw [if_pos hdhigh, if_pos hdhigh, ite_self]
  · cases h
    rw [if_pos hdlow, if_neg fun hb => habove (hhigh' hb)]
  · cases h
    rw [if_neg fun hb => hbelow (hlow' hb), if_pos hdhigh]

/-- In a smaller cell there is no point where there is none in the larger one. -/
theorem gridPoint?_none_of_smaller (hlow : low < low') (hhigh : high' < high)
    (h : gridPoint? tie closed low x high = none) :
    gridPoint? tie closed' low' x high' = none := by
  rw [gridPoint?_eq_none_iff] at h ⊢
  exact ⟨fun hb => h.1 (.of_lt (hlow.trans_le hb.le)), fun hb => h.2 (.of_lt (hb.le.trans_lt hhigh))⟩

end GridPoint

/-! ## Searching the grids -/

/-- A search finds the first hit, when there is one within its steps. -/
theorem searchGrids_hit (hit : Int → Option Nat) {steps : Nat} {start : Int}
    (h : ∃ j < steps, hit (start - j) ≠ none) :
    hit (searchGrids hit steps start).2 = some (searchGrids hit steps start).1 := by
  induction steps generalizing start with
  | zero =>
    obtain ⟨j, hj, -⟩ := h
    exact absurd hj (Nat.not_lt_zero j)
  | succ steps ih =>
    rw [searchGrids]
    cases hstart : hit start with
    | some d => exact hstart
    | none =>
      refine ih ?_
      obtain ⟨_ | j, hj, hhit⟩ := h
      · exact absurd (by simpa using hstart) hhit
      · refine ⟨j, by omega, ?_⟩
        rwa [show start - 1 - (j : Int) = start - (j + 1 : Nat) by push_cast; ring]

/-- A search with fewer hits has the same result, when that is a hit as well. -/
theorem searchGrids_of_fewer {hit hit' : Int → Option Nat} {steps : Nat} {start : Int}
    (hnone : ∀ k, hit k = none → hit' k = none)
    (hsome : ∀ d k, searchGrids hit steps start = (d, k) → hit k = some d → hit' k = some d) :
    searchGrids hit' steps start = searchGrids hit steps start := by
  induction steps generalizing start with
  | zero => rfl
  | succ steps ih =>
    rw [searchGrids, searchGrids]
    cases hstart : hit start with
    | some d =>
      rw [hsome d start (by rw [searchGrids, hstart]) hstart]
    | none =>
      rw [hnone start hstart]
      refine ih fun d k hresult => hsome d k ?_
      rw [searchGrids, hstart]
      exact hresult

/-- The exponent of the first grid, which is coarser than the number. -/
def firstGrid (x : ℚ) : Int :=
  if 1 ≤ x then ((Nat.toDigits 10 ⌊x⌋₊).length : Int)
  else 2 - ((Nat.toDigits 10 ⌊x⁻¹⌋₊).length : Int)

/-- The first grid is not much coarser than the number. -/
theorem ten_zpow_firstGrid_le {x : ℚ} (hx : 0 < x) : (10 : ℚ) ^ firstGrid x ≤ 100 * x := by
  unfold firstGrid
  split
  next hone =>
    have hfloor : (⌊x⌋₊ : ℚ) ≤ x := Nat.floor_le hx.le
    have hpos : 1 ≤ ⌊x⌋₊ := Nat.le_floor (by exact_mod_cast hone)
    obtain ⟨l, hl⟩ : ∃ l, (Nat.toDigits 10 ⌊x⌋₊).length = l + 1 :=
      ⟨_, (Nat.succ_pred_eq_of_pos Nat.length_toDigits_pos).symm⟩
    have hle : 10 ^ l ≤ ⌊x⌋₊ := by
      rcases Nat.eq_zero_or_pos l with rfl | hpositive
      · exact hpos
      · by_contra hlt
        have := (Nat.length_toDigits_le_iff (b := 10) (by decide) hpositive).mpr (not_le.mp hlt)
        omega
    have hle' : (10 : ℚ) ^ l ≤ ⌊x⌋₊ := by exact_mod_cast hle
    rw [hl, zpow_natCast, pow_succ]
    linarith
  next hone =>
    have hlt : ⌊x⁻¹⌋₊ < 10 ^ (Nat.toDigits 10 ⌊x⁻¹⌋₊).length :=
      (Nat.length_toDigits_le_iff (by decide) Nat.length_toDigits_pos).mp le_rfl
    have hinverse : x⁻¹ < 10 ^ (Nat.toDigits 10 ⌊x⁻¹⌋₊).length := by
      have : ((⌊x⁻¹⌋₊ + 1 : Nat) : ℚ) ≤ (10 ^ (Nat.toDigits 10 ⌊x⁻¹⌋₊).length : Nat) :=
        Nat.cast_le.mpr hlt
      push_cast at this
      exact (Nat.lt_floor_add_one x⁻¹).trans_le this
    rw [zpow_sub₀ (by norm_num), zpow_natCast, div_le_iff₀ (by positivity)]
    have hproduct : 1 ≤ x * 10 ^ (Nat.toDigits 10 ⌊x⁻¹⌋₊).length := by
      rw [← inv_mul_le_iff₀ hx, mul_one]
      exact hinverse.le
    rw [zpow_ofNat]
    linarith

/-! ## Digits of a number in its cell -/

/-- The point of the grid `10 ^ k` next to a number that lies in its cell. -/
def decimalPoint? (tie : TieRule) (closed : Bool) (low x high : ℚ) (k : Int) : Option Nat :=
  gridPoint? tie closed (low / 10 ^ k) (x / 10 ^ k) (high / 10 ^ k)

/-- The digits and the exponent of a number in its cell. -/
def shortestIn (tie : TieRule) (closed : Bool) (low x high : ℚ) : Nat × Int :=
  searchGrids (decimalPoint? tie closed low x high) 24 (firstGrid x)

section ShortestIn

variable {tie : TieRule} {closed closed' : Bool} {low low' x high high' : ℚ} {d : Nat} {k : Int}

theorem ten_zpow_pos (k : Int) : (0 : ℚ) < 10 ^ k := by positivity

/-- A multiple of a power of ten lies in a cell as its digits do in the scaled one. -/
theorem between_div_iff : Between closed (low / 10 ^ k) d (high / 10 ^ k) ↔
    Between closed low (d * 10 ^ k) high := by
  have hunit := ten_zpow_pos k
  rw [← between_mul_iff hunit, div_mul_cancel₀ _ hunit.ne', div_mul_cancel₀ _ hunit.ne']

theorem between_of_decimalPoint? (h : decimalPoint? tie closed low x high k = some d) (hx : 0 ≤ x)
    (hlow : low < x) (hhigh : x < high) : Between closed low (d * 10 ^ k) high :=
  between_div_iff.mp <| between_of_gridPoint? h (div_nonneg hx (ten_zpow_pos k).le)
    (div_lt_div_of_pos_right hlow (ten_zpow_pos k))
    (div_lt_div_of_pos_right hhigh (ten_zpow_pos k))

/-- A grid finer than the upper half of the cell has a point. -/
theorem decimalPoint?_ne_none (hx : 0 ≤ x) (hfine : 10 ^ k < high - x) :
    decimalPoint? tie closed low x high k ≠ none := by
  intro hnone
  have hunit := ten_zpow_pos k
  refine (gridPoint?_eq_none_iff.mp hnone).2 (.of_lt ?_)
  have hfloor : (⌊x / 10 ^ k⌋₊ : ℚ) * 10 ^ k ≤ x := by
    rw [← le_div_iff₀ hunit]
    exact Nat.floor_le (div_nonneg hx hunit.le)
  rw [lt_div_iff₀ hunit]
  push_cast
  linarith

/-- The digits lie in the cell, if its upper half is not too small. -/
theorem between_shortestIn (hx : 0 < x) (hlow : low < x) (hhigh : x < high)
    (hwide : x ≤ 10 ^ 20 * (high - x)) :
    Between closed low ((shortestIn tie closed low x high).1 *
      10 ^ (shortestIn tie closed low x high).2) high := by
  have hlast : (10 : ℚ) ^ (firstGrid x - (23 : Nat)) < high - x := by
    have hfirst := ten_zpow_firstGrid_le hx
    rw [zpow_sub₀ (by norm_num), zpow_natCast, div_lt_iff₀ (by positivity)]
    linarith
  have hhit : decimalPoint? tie closed low x high (shortestIn tie closed low x high).2 =
      some (shortestIn tie closed low x high).1 :=
    searchGrids_hit _ ⟨23, by decide, decimalPoint?_ne_none hx.le hlast⟩
  exact between_of_decimalPoint? hhit hx.le hlow hhigh

/-- A number has the same digits in a smaller cell, when they lie there. -/
theorem shortestIn_of_smaller (hlow : low < low') (hhigh : high' < high)
    (h : Between closed' low' ((shortestIn tie closed low x high).1 *
      10 ^ (shortestIn tie closed low x high).2) high') :
    shortestIn tie closed' low' x high' = shortestIn tie closed low x high := by
  have hlow' (k : Int) : low / 10 ^ k < low' / 10 ^ k := div_lt_div_of_pos_right hlow (ten_zpow_pos k)
  have hhigh' (k : Int) : high' / 10 ^ k < high / 10 ^ k :=
    div_lt_div_of_pos_right hhigh (ten_zpow_pos k)
  refine searchGrids_of_fewer (fun k hnone => ?_) (fun d k hresult hsome => ?_)
  · exact gridPoint?_none_of_smaller (hlow' k) (hhigh' k) hnone
  · rw [shortestIn, hresult] at h
    exact gridPoint?_of_smaller (hlow' k) (hhigh' k) hsome (between_div_iff.mpr h)

end ShortestIn

/-- The shortest digits of a float are those of its number in its cell. -/
theorem shortest_eq (f : FloatFormat) (tie : TieRule) {significand : Nat} (power : Int)
    (hpos : 0 < significand) : shortest f tie significand power =
      shortestIn tie (significand % 2 == 0) (f.cellLow significand power * 2 ^ power)
        (significand * 2 ^ power) ((significand + 1 / 2) * 2 ^ power) := by
  unfold shortest
  extract_lets value narrowBelow low high quarter up down hit start
  have hdown : 0 < down := denominator_pos quarter
  have hdownpos : (0 : ℚ) < down := by exact_mod_cast hdown
  have huppos : (0 : ℚ) < up := by exact_mod_cast numerator_pos quarter
  have hvalue : (value : ℚ) = 4 * significand := by push_cast [value]; rfl
  have hhigh : (high : ℚ) = 4 * (significand + 1 / 2) := by push_cast [high, hvalue]; ring
  have hlow : (low : ℚ) = 4 * f.cellLow significand power := by
    have hpos' : (1 : ℚ) ≤ significand := by exact_mod_cast hpos
    rw [FloatFormat.cellLow]
    by_cases hstart : f.IsBinadeStart significand power
    · rw [if_pos hstart, show low = value - 1 from if_pos hstart, Nat.cast_sub (by omega), hvalue]
      push_cast
      ring
    · rw [if_neg hstart, show low = value - 2 from if_neg hstart, Nat.cast_sub (by omega), hvalue]
      push_cast
      ring
  -- four quarters of the last bit
  have hunit : (2 : ℚ) ^ power = 4 * (up / down) := by
    rw [show (up : ℚ) / down = 2 ^ quarter from (two_zpow quarter).symm, zpow_sub₀ two_ne_zero]
    field_simp
    norm_num
  have hhit (k : Int) : hit k = decimalPoint? tie (significand % 2 == 0)
      (f.cellLow significand power * 2 ^ power) (significand * 2 ^ power)
      ((significand + 1 / 2) * 2 ^ power) k := by
    rw [decimalPoint?, hunit]
    simp only [hit]
    split
    next hneg =>
      obtain ⟨n, rfl⟩ : ∃ n : Nat, k = -n := ⟨k.natAbs, by omega⟩
      have hscale (c : ℚ) : 4 * c * (up * 10 ^ n : Nat) / down =
          c * (4 * (up / down)) / 10 ^ (-n : Int) := by
        rw [zpow_neg, zpow_natCast]
        push_cast
        field_simp
      rw [gridHit?_eq _ _ _ _ _ hdown, hvalue, hlow, hhigh, Int.natAbs_neg, Int.natAbs_natCast,
        hscale, hscale, hscale]
    next hnonneg =>
      obtain ⟨n, rfl⟩ : ∃ n : Nat, k = n := ⟨k.natAbs, by omega⟩
      have hscale (c : ℚ) : 4 * c * up / (down * 10 ^ n : Nat) =
          c * (4 * (up / down)) / 10 ^ (n : Int) := by
        rw [zpow_natCast]
        push_cast
        field_simp
      rw [Int.natAbs_natCast, gridHit?_eq _ _ _ _ _ (Nat.mul_pos hdown (by positivity)), hvalue,
        hlow, hhigh, hscale, hscale, hscale]
  have hstart : start = firstGrid (significand * 2 ^ power) := by
    have hratio : (significand * 2 ^ power : ℚ) = (value * up : Nat) / (down : Nat) := by
      rw [hunit]
      push_cast
      rw [hvalue]
      ring
    have hone : (1 : ℚ) ≤ (value * up : Nat) / (down : Nat) ↔ down ≤ value * up := by
      rw [one_le_div hdownpos, Nat.cast_le]
    rw [firstGrid, hratio, inv_div, Nat.floor_div_eq_div, Nat.floor_div_eq_div]
    simp only [hone]
    rfl
  rw [shortestIn, hstart, funext hhit]

namespace FloatFormat

variable {f g : FloatFormat} {tie : TieRule} {significand significand' : Nat} {power power' : Int}

/-- The shortest digits of a float lie in its cell, since 24 grids are enough for 53 bits. -/
theorem cell_shortest (tie : TieRule) (hpos : 0 < significand) (hsmall : significand < 2 ^ 53)
    (power : Int) : f.Cell significand power ((shortest f tie significand power).1 *
      10 ^ (shortest f tie significand power).2) := by
  have hunit : (0 : ℚ) < 2 ^ power := by positivity
  have hvalue : (0 : ℚ) < significand := by exact_mod_cast hpos
  have hlow : f.cellLow significand power < significand := by
    unfold cellLow
    split <;> linarith
  rw [shortest_eq f tie power hpos]
  refine between_shortestIn (mul_pos hvalue hunit) (mul_lt_mul_of_pos_right hlow hunit)
    (mul_lt_mul_of_pos_right (by linarith) hunit) ?_
  have hbits : (significand : ℚ) ≤ 2 ^ 53 := by exact_mod_cast hsmall.le
  calc (significand : ℚ) * 2 ^ power ≤ 10 ^ 20 * (1 / 2) * 2 ^ power :=
        mul_le_mul_of_nonneg_right (by linarith) hunit.le
    _ = 10 ^ 20 * ((significand + 1 / 2) * 2 ^ power - significand * 2 ^ power) := by ring

/-- The numbers in the cell of a positive float are positive. -/
theorem Cell.pos {x : ℚ} (h : f.Cell significand power x) (hpos : 0 < significand) : 0 < x := by
  have hvalue : (1 : ℚ) ≤ significand := by exact_mod_cast hpos
  have hlow := f.le_cellLow significand power
  exact (mul_pos (by linarith) (by positivity)).trans_le h.1

/-- A number has the same digits in a finer format, when they lie in its cell there. -/
theorem shortest_of_finer (hpos : 0 < significand) (hpos' : 0 < significand')
    (hsame : (significand' : ℚ) * 2 ^ power' = significand * 2 ^ power)
    (hfiner : power' ≤ power - 2) (h : g.Cell significand' power'
      ((shortest f tie significand power).1 * 10 ^ (shortest f tie significand power).2)) :
    shortest g tie significand' power' = shortest f tie significand power := by
  have hunit : (0 : ℚ) < 2 ^ power := by positivity
  have hquarter : (2 : ℚ) ^ power' ≤ 2 ^ power / 4 := by
    refine (zpow_le_zpow_right₀ one_le_two hfiner).trans_eq ?_
    rw [zpow_sub₀ two_ne_zero]
    norm_num
  have hlow : f.cellLow significand power * 2 ^ power < g.cellLow significand' power' * 2 ^ power' := by
    have hcell : f.cellLow significand power ≤ significand - 1 / 4 := by
      unfold cellLow
      split <;> linarith
    calc f.cellLow significand power * 2 ^ power ≤ (significand - 1 / 4) * 2 ^ power :=
          mul_le_mul_of_nonneg_right hcell hunit.le
      _ < significand' * 2 ^ power' - 1 / 2 * 2 ^ power' := by rw [hsame]; linarith
      _ = (significand' - 1 / 2) * 2 ^ power' := by ring
      _ ≤ g.cellLow significand' power' * 2 ^ power' :=
          mul_le_mul_of_nonneg_right (g.le_cellLow _ _) (by positivity)
  have hhigh : ((significand' : ℚ) + 1 / 2) * 2 ^ power' < (significand + 1 / 2) * 2 ^ power := by
    calc ((significand' : ℚ) + 1 / 2) * 2 ^ power'
        = significand * 2 ^ power + 1 / 2 * 2 ^ power' := by rw [← hsame]; ring
      _ < (significand + 1 / 2) * 2 ^ power := by linarith
  rw [shortest_eq g tie power' hpos', shortest_eq f tie power hpos, hsame]
  rw [shortest_eq f tie power hpos] at h
  exact shortestIn_of_smaller hlow hhigh h

end FloatFormat

end TypedSql.Numeral
