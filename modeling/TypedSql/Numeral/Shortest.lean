import TypedSql.Numeral.Binary
import TypedSql.Numeral.Digits

/-!
# Shortest float text

The fewest decimal digits that read back as the same float, found on decimal grids of falling
spacing by exact integer arithmetic, and their layout in positional or exponent notation.
-/

namespace TypedSql.Numeral

-- Powers are those of the core library, whatever else is imported.
attribute [local instance (high)] instPowNat

/-- Where an exact tie between two shortest candidates goes. -/
inductive TieRule where
  | toEven
  | away
deriving DecidableEq, Repr

/-- The choices that a format makes in writing a finite float. -/
structure FloatLayout where
  /-- The least decimal exponent written positionally; from `10 ^ 16` on an exponent is written. -/
  leastPositional : Int
  /-- Whether a positive exponent carries a plus sign. -/
  plusSign : Bool
  tie : TieRule
deriving DecidableEq, Repr

/-- The two neighbours of a number on a decimal grid, against its rounding interval.

The number is `value * scaleUp` and grid point `d` is `d * scaleDown`, in a common unit. -/
def gridHit? (tie : TieRule) (value low high : Nat) (closed : Bool) (scaleUp scaleDown : Nat) :
    Option Nat :=
  let below := value * scaleUp / scaleDown
  let above := below + 1
  let atLeast :=
    if closed then low * scaleUp ≤ below * scaleDown else low * scaleUp < below * scaleDown
  let atMost :=
    if closed then above * scaleDown ≤ high * scaleUp else above * scaleDown < high * scaleUp
  let twice := 2 * (value * scaleUp)
  let middle := (below + above) * scaleDown
  match decide atLeast, decide atMost with
  | false, false => none
  | true, false => some below
  | false, true => some above
  | true, true =>
    if twice < middle then some below
    else if twice > middle then some above
    else match tie with
      | .away => some above
      | .toEven => some (if below % 2 = 0 then below else above)

/-- The first hit on the grids `10 ^ k`, `10 ^ (k - 1)`, ..., as digits and exponent. -/
def searchGrids (hit : Int → Option Nat) : Nat → Int → Nat × Int
  | 0, k => (0, k)
  | steps + 1, k =>
    match hit k with
    | some d => (d, k)
    | none => searchGrids hit steps (k - 1)

/-- Shortest digits `d` and exponent `k` with `d * 10 ^ k` in the rounding interval of the positive
float `significand * 2 ^ power`.

In quarters of the last bit the interval reaches two up and two down, or only one down at the
lower end of a binade. -/
def shortest (f : FloatFormat) (tie : TieRule) (significand : Nat) (power : Int) : Nat × Int :=
  let value := 4 * significand
  let narrowBelow := significand = 2 ^ f.fractionBits ∧ f.leastPower < power
  let low := if narrowBelow then value - 1 else value - 2
  let high := value + 2
  let quarter := power - 2
  let up := if quarter < 0 then 1 else 2 ^ quarter.natAbs
  let down := if quarter < 0 then 2 ^ quarter.natAbs else 1
  let hit (k : Int) : Option Nat :=
    if k < 0 then gridHit? tie value low high (significand % 2 == 0) (up * 10 ^ k.natAbs) down
    else gridHit? tie value low high (significand % 2 == 0) up (down * 10 ^ k.natAbs)
  let start : Int :=
    if down ≤ value * up then ((Nat.toDigits 10 (value * up / down)).length : Int)
    else 2 - ((Nat.toDigits 10 (down / (value * up))).length : Int)
  searchGrids hit 24 start

/-- The digits of a decimal at an exponent, laid out. -/
def FloatLayout.arrange (layout : FloatLayout) (d : Nat) (k : Int) : List Char :=
  let digits := decimal d
  let exponent : Int := k + (digits.length - 1 : Nat)
  if exponent < layout.leastPositional ∨ 16 ≤ exponent then
    let fraction := digits.tail
    digits.take 1 ++ (if fraction.isEmpty then [] else '.' :: fraction) ++ 'e' ::
      ((if layout.plusSign && decide (0 ≤ exponent) then ['+'] else []) ++ signed exponent)
  else if exponent < 0 then
    '0' :: '.' :: (List.replicate (exponent.natAbs - 1) '0' ++ digits)
  else
    let whole := exponent.natAbs + 1
    if digits.length ≤ whole then digits ++ List.replicate (whole - digits.length) '0' ++ ['.', '0']
    else digits.take whole ++ '.' :: digits.drop whole

/-- The text of a float taken apart. -/
def FloatLayout.text (layout : FloatLayout) (f : FloatFormat) : FloatClass → List Char
  | .nan => "NaN".toList
  | .infinite negative => if negative then "-inf".toList else "inf".toList
  | .finite negative significand power =>
    let magnitude :=
      if significand = 0 then "0.0".toList
      else
        let (d, k) := shortest f layout.tie significand power
        layout.arrange d k
    if negative then '-' :: magnitude else magnitude

/-- Floats in SQL text and in messages: positional from `0.0001`, ties away from zero. -/
def FloatLayout.plain : FloatLayout := ⟨-4, false, .away⟩

/-- The plain text of a 64-bit float. -/
def Binary64.text (x : Binary64) : List Char := FloatLayout.plain.text .wide x.parts

/-- The plain text of a 32-bit float, shortest in its own width. -/
def Binary32.text (x : Binary32) : List Char := FloatLayout.plain.text .narrow x.parts

end TypedSql.Numeral
