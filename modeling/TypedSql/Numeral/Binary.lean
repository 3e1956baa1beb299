/-!
# Binary floating-point numbers

Floats are held as their IEEE 754 bits and taken apart into sign, significand and power of two.
Rounding a ratio of natural numbers to the nearest float is exact integer arithmetic, ties to the
even significand.
-/

namespace TypedSql.Numeral

-- Powers are those of the core library, whatever else is imported.
attribute [local instance (high)] instPowNat

/-- An interchange format: the widths of the stored fraction and of the exponent. -/
structure FloatFormat where
  fractionBits : Nat
  exponentBits : Nat
deriving DecidableEq, Repr

namespace FloatFormat

/-- The 64-bit format. -/
def wide : FloatFormat := ⟨52, 11⟩

/-- The 32-bit format. -/
def narrow : FloatFormat := ⟨23, 8⟩

/-- The exponent field of infinities and NaNs. -/
def topExponent (f : FloatFormat) : Nat := 2 ^ f.exponentBits - 1

/-- The power of two that the last bit of a subnormal number stands for. -/
def leastPower (f : FloatFormat) : Int := 2 - 2 ^ (f.exponentBits - 1) - f.fractionBits

/-- The bits of positive infinity. -/
def infinity (f : FloatFormat) : Nat := f.topExponent * 2 ^ f.fractionBits

/-- The sign bit. -/
def signBit (f : FloatFormat) : Nat := 2 ^ (f.fractionBits + f.exponentBits)

end FloatFormat

/-- What a bit pattern stands for; a finite magnitude is `significand * 2 ^ power`. -/
inductive FloatClass where
  | nan
  | infinite (negative : Bool)
  | finite (negative : Bool) (significand : Nat) (power : Int)
deriving DecidableEq, Repr

/-- Take a bit pattern apart. -/
def FloatFormat.classify (f : FloatFormat) (bits : Nat) : FloatClass :=
  let negative := bits / f.signBit % 2 == 1
  let field := bits / 2 ^ f.fractionBits % 2 ^ f.exponentBits
  let fraction := bits % 2 ^ f.fractionBits
  if field = f.topExponent then
    if fraction = 0 then .infinite negative else .nan
  else if field = 0 then .finite negative fraction f.leastPower
  else .finite negative (2 ^ f.fractionBits + fraction) (f.leastPower + (field - 1 : Nat))

/-- The quotient rounded to the nearest integer, ties to the even one. -/
def roundDiv (num den : Nat) : Nat :=
  let q := num / den
  let r := num % den
  if 2 * r < den then q
  else if 2 * r > den then q + 1
  else if q % 2 = 0 then q else q + 1

/-- The bits of the float nearest to `num / den`, infinity when it is out of range.

The power of two is chosen so that the rounded quotient fills the significand; a carry out of the
significand moves on to the next exponent by itself, since the fields are adjacent. -/
def FloatFormat.nearest (f : FloatFormat) (num den : Nat) : Nat :=
  if num = 0 then 0
  else
    let guess : Int := (Nat.log2 num : Int) - Nat.log2 den
    let tooLarge :=
      if guess < 0 then num * 2 ^ guess.natAbs < den else num < den * 2 ^ guess.natAbs
    let exponent := if tooLarge then guess - 1 else guess
    let power := max f.leastPower (exponent - f.fractionBits)
    let significand :=
      if power < 0 then roundDiv (num * 2 ^ power.natAbs) den
      else roundDiv num (den * 2 ^ power.natAbs)
    let bits := (power - f.leastPower).toNat * 2 ^ f.fractionBits + significand
    if bits < f.infinity then bits else f.infinity

/-- A 32-bit float. -/
structure Binary32 where
  bits : UInt32
deriving DecidableEq, Repr, Inhabited

/-- A 64-bit float. -/
structure Binary64 where
  bits : UInt64
deriving DecidableEq, Repr, Inhabited

/-- Parts of a 32-bit float. -/
def Binary32.parts (x : Binary32) : FloatClass := FloatFormat.narrow.classify x.bits.toNat

/-- Parts of a 64-bit float. -/
def Binary64.parts (x : Binary64) : FloatClass := FloatFormat.wide.classify x.bits.toNat

namespace Binary64

/-- The 64-bit float with the given sign and bits of the magnitude. -/
def ofMagnitude (negative : Bool) (magnitude : Nat) : Binary64 :=
  ⟨UInt64.ofNat (if negative then FloatFormat.wide.signBit + magnitude else magnitude)⟩

/-- The quiet NaN with an empty payload. -/
def nan : Binary64 := ⟨0x7ff8000000000000⟩

/-- The float nearest to a ratio of natural numbers, with a sign. -/
def ofRatio (negative : Bool) (num den : Nat) : Binary64 :=
  ofMagnitude negative (FloatFormat.wide.nearest num den)

/-- The float nearest to an integer. -/
def ofInt (i : Int) : Binary64 := ofRatio (decide (i < 0)) i.natAbs 1

/-- Whether the float is not a number. -/
def isNaN (x : Binary64) : Bool := x.parts == .nan

/-- Whether the float is neither infinite nor NaN. -/
def isFinite (x : Binary64) : Bool := match x.parts with
  | .finite .. => true
  | _ => false

/-- Whether the float is a zero of either sign. -/
def isZero (x : Binary64) : Bool := match x.parts with
  | .finite _ significand _ => significand == 0
  | _ => false

/-- The magnitude of a finite float as a ratio. -/
def ratio (x : Binary64) : Nat × Nat :=
  match x.parts with
  | .finite _ significand power =>
    if power < 0 then (significand, 2 ^ power.natAbs) else (significand * 2 ^ power.natAbs, 1)
  | _ => (0, 1)

/-- The product of two finite non-negative floats, rounded once. -/
def scaleUp (x y : Binary64) : Binary64 :=
  ofRatio false (x.ratio.1 * y.ratio.1) (x.ratio.2 * y.ratio.2)

/-- The quotient of two finite non-negative floats, rounded once. -/
def scaleDown (x y : Binary64) : Binary64 :=
  ofRatio false (x.ratio.1 * y.ratio.2) (x.ratio.2 * y.ratio.1)

/-- The float nearest to a power of ten. -/
def tenTo (n : Nat) : Binary64 := ofRatio false (10 ^ n) 1

/-- Comparison of floats: NaN equals nothing, the zeros equal each other. -/
def ieeeEq (x y : Binary64) : Bool :=
  !x.isNaN && !y.isNaN && (x == y || (x.isZero && y.isZero))

/-- One bit pattern for all NaNs and one for both zeros. -/
def canonicalBits (x : Binary64) : UInt64 :=
  if x.isNaN then nan.bits else if x.isZero then 0 else x.bits

end Binary64

namespace Binary32

/-- The same number as a 64-bit float. -/
def widen (x : Binary32) : Binary64 :=
  match x.parts with
  | .nan => .nan
  | .infinite negative => .ofMagnitude negative FloatFormat.wide.infinity
  | .finite negative significand power =>
    if power < 0 then .ofRatio negative significand (2 ^ power.natAbs)
    else .ofRatio negative (significand * 2 ^ power.natAbs) 1

/-- Whether the float is neither infinite nor NaN. -/
def isFinite (x : Binary32) : Bool := match x.parts with
  | .finite .. => true
  | _ => false

/-- Whether the float is not a number. -/
def isNaN (x : Binary32) : Bool := x.parts == .nan

/-- Whether the float is a zero of either sign. -/
def isZero (x : Binary32) : Bool := match x.parts with
  | .finite _ significand _ => significand == 0
  | _ => false

/-- Comparison of floats: NaN equals nothing, the zeros equal each other. -/
def ieeeEq (x y : Binary32) : Bool :=
  !x.isNaN && !y.isNaN && (x == y || (x.isZero && y.isZero))

end Binary32

end TypedSql.Numeral
