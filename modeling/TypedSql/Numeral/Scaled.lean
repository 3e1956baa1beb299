import TypedSql.Numeral.Digits

/-!
# Scaled decimals

A decimal number kept as an integer mantissa and a power of ten, so that `12.50` and `12.5` are
the same number in two spellings. The plain text shows exactly the stored fraction digits;
comparison goes by the number.
-/

namespace TypedSql.Numeral

-- Powers are those of the core library, whatever else is imported.
attribute [local instance (high)] instPowNat

/-- The number `mantissa * 10 ^ (-scale)`. -/
structure Scaled where
  mantissa : Int
  scale : Int
deriving DecidableEq, Repr, Inhabited

namespace Scaled

/-- A whole number. -/
def ofInt (i : Int) : Scaled := ⟨i, 0⟩

/-- The number meant. -/
def toRat (d : Scaled) : Rat := d.mantissa * (10 : Rat) ^ (-d.scale)

/-- A number without its final zeros, and how many there were. -/
def dropZeros (n : Nat) : Nat × Nat :=
  if n = 0 ∨ n % 10 ≠ 0 then (n, 0)
  else
    let (rest, count) := dropZeros (n / 10)
    (rest, count + 1)
termination_by n

/-- The spelling of a number whose mantissa ends in no zero; zero has no fraction digits. -/
def normal (d : Scaled) : Scaled :=
  if d.mantissa = 0 then ⟨0, 0⟩
  else
    let (rest, count) := dropZeros d.mantissa.natAbs
    ⟨d.mantissa.sign * rest, d.scale - count⟩

/-- The digits of a mantissa with the decimal point before the last `places`. -/
def pointed (places : Nat) (mantissa : Nat) : List Char :=
  let digits := padded (places + 1) mantissa
  digits.take (digits.length - places) ++ '.' :: digits.drop (digits.length - places)

/-- Plain text: exactly `scale` fraction digits, or zeros appended for a negative scale. -/
def text (d : Scaled) : List Char :=
  let magnitude :=
    if d.scale < 0 then decimal d.mantissa.natAbs ++ List.replicate d.scale.natAbs '0'
    else if d.scale = 0 then decimal d.mantissa.natAbs
    else pointed d.scale.natAbs d.mantissa.natAbs
  if d.mantissa < 0 then '-' :: magnitude else magnitude

/-- The whole part as a 64-bit unsigned integer; no negative number has one. -/
def toUInt64? (d : Scaled) : Option UInt64 :=
  if d.mantissa < 0 then none
  else
    let whole :=
      if d.scale < 0 then d.mantissa.natAbs * 10 ^ d.scale.natAbs
      else d.mantissa.natAbs / 10 ^ d.scale.natAbs
    if h : whole < UInt64.size then some (UInt64.ofNatLT whole h) else none

/-- Equality as numbers, whatever the spelling. -/
def sameNumber (a b : Scaled) : Bool := a.normal == b.normal

/-- The final zeros put back give the number again. -/
theorem dropZeros_mul (n : Nat) : (dropZeros n).1 * 10 ^ (dropZeros n).2 = n := by
  fun_induction dropZeros n with
  | case1 => simp
  | case2 n h rest count heq ih =>
    simp only [heq] at ih
    rw [Nat.pow_succ, ← Nat.mul_assoc, ih]
    omega

/-- The normal spelling means the same number. -/
theorem toRat_normal (d : Scaled) : d.normal.toRat = d.toRat := by
  unfold normal toRat
  split
  · simp [*]
  · have h := dropZeros_mul d.mantissa.natAbs
    generalize dropZeros d.mantissa.natAbs = dropped at h ⊢
    obtain ⟨rest, count⟩ := dropped
    have mantissa : d.mantissa = d.mantissa.sign * rest * 10 ^ count := by
      rw [Int.mul_assoc]
      exact_mod_cast h ▸ (Int.sign_mul_natAbs d.mantissa).symm
    have exponent : -(d.scale - count) = (count : Int) + -d.scale := by omega
    show ((d.mantissa.sign * rest : Int) : Rat) * 10 ^ (-(d.scale - count)) = _
    rw [exponent, Rat.zpow_add (by decide), Rat.zpow_natCast, ← Rat.mul_assoc]
    congr 1
    exact_mod_cast mantissa.symm

/-- Spellings that count as equal mean the same number. -/
theorem toRat_eq_of_sameNumber {a b : Scaled} (h : a.sameNumber b = true) : a.toRat = b.toRat := by
  rw [← toRat_normal a, ← toRat_normal b, eq_of_beq h]

end Scaled

/-- The base `2 ^ 64` digits of a natural number, least significant first; none for zero. -/
def limbs (n : Nat) : List Nat :=
  if h : n = 0 then [] else n % UInt64.size :: limbs (n / UInt64.size)
termination_by n
decreasing_by exact Nat.div_lt_self (Nat.pos_of_ne_zero h) (by decide)

end TypedSql.Numeral
