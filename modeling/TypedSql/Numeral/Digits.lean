/-!
# Decimal digits

Natural numbers and integers in decimal, padded fields, hexadecimal digits, and the reading of
32-bit counts.
-/

namespace TypedSql.Numeral

/-- A natural number in decimal without leading zeros. -/
def decimal (n : Nat) : List Char := Nat.toDigits 10 n

/-- An integer in decimal, a minus sign before a negative one. -/
def signed (i : Int) : List Char := if i < 0 then '-' :: decimal i.natAbs else decimal i.natAbs

/-- Text with zeros in front up to `width` characters. -/
def padLeft (width : Nat) (s : List Char) : List Char := List.replicate (width - s.length) '0' ++ s

/-- A natural number in decimal with at least `width` digits. -/
def padded (width n : Nat) : List Char := padLeft width (decimal n)

/-- The value of a decimal digit. -/
def digitValue? (c : Char) : Option Nat := if c.isDigit then some (c.toNat - '0'.toNat) else none

/-- The value of a non-empty run of decimal digits. -/
def natural? : List Char → Option Nat
  | [] => none
  | s => s.foldlM (fun n c => (digitValue? c).map (n * 10 + ·)) 0

/-- Text without one leading plus sign. -/
def dropPlus : List Char → List Char
  | '+' :: r => r
  | s => s

/-- Reads a 32-bit count: digits after an optional plus sign, below `2 ^ 32`. -/
def count32? (s : List Char) : Option UInt32 :=
  (natural? (dropPlus s)).bind fun n =>
    if h : n < UInt32.size then some (UInt32.ofNatLT n h) else none

/-- The lower-case hexadecimal digit of a value below 16. -/
def hexDigit (d : Fin 16) : Char := Nat.digitChar d

/-- The value of a hexadecimal digit of either case. -/
def hexValue? (c : Char) : Option (Fin 16) :=
  let n := c.toNat
  if 48 ≤ n ∧ n ≤ 57 then some (Fin.ofNat 16 (n - 48))
  else if 97 ≤ n ∧ n ≤ 102 then some (Fin.ofNat 16 (n - 87))
  else if 65 ≤ n ∧ n ≤ 70 then some (Fin.ofNat 16 (n - 55))
  else none

/-- A byte as two lower-case hexadecimal digits. -/
def hexByte (b : UInt8) : List Char :=
  [hexDigit (Fin.ofNat 16 (b.toNat / 16)), hexDigit (Fin.ofNat 16 b.toNat)]

/-- A hexadecimal digit reads back as the value that it was written for. -/
theorem hexValue?_hexDigit (d : Fin 16) : hexValue? (hexDigit d) = some d := by
  revert d
  decide

end TypedSql.Numeral
