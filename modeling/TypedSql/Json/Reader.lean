import TypedSql.Json.Basic

/-!
# Reading JSON text

A recursive-descent reader. Numbers keep a significand of at most 64 bits: digits that do not fit
are dropped, and the power of ten is then applied to the significand with one rounding per step.
-/

namespace TypedSql.Json

open Numeral

/-- Text without its leading JSON blanks. -/
def skipBlanks (s : List Char) : List Char :=
  s.dropWhile fun c => c = ' ' ∨ c = '\n' ∨ c = '\r' ∨ c = '\t'

/-- Text without `head`, if it starts with it. -/
def expect? (head s : List Char) : Option (List Char) :=
  if s.take head.length = head then some (s.drop head.length) else none

/-! ## Numbers -/

/-- Appends digits to a significand as long as it fits 64 bits; also the digits left over. -/
def accumulate (significand : Nat) : List Char → Nat × List Char
  | [] => (significand, [])
  | c :: rest =>
    let next := significand * 10 + (c.toNat - 48)
    if next < UInt64.size then accumulate next rest else (significand, c :: rest)

/-- A float times a power of ten, none when it overflows. -/
def scaleByTen (x : Binary64) (exponent : Int) : Option Binary64 :=
  if exponent.natAbs ≤ 308 then
    if 0 ≤ exponent then
      let y := x.scaleUp (.tenTo exponent.natAbs)
      if y.isFinite then some y else none
    else some (x.scaleDown (.tenTo exponent.natAbs))
  else if x.isZero then some x
  else if 0 ≤ exponent then none
  else scaleByTen (x.scaleDown (.tenTo 308)) (exponent + 308)
termination_by exponent.natAbs
decreasing_by omega

/-- The float with a sign before a magnitude. -/
def withSign (negative : Bool) (x : Binary64) : Binary64 :=
  .ofMagnitude negative (x.bits.toNat % FloatFormat.wide.signBit)

/-- The float for a significand and a power of ten. -/
def floatOf (negative : Bool) (significand : Nat) (exponent : Int) : Option JsonNumber :=
  (scaleByTen (.ofInt significand) exponent).map fun x => .float (withSign negative x)

/-- An optional sign and the digits of an exponent, at least one. -/
def readExponent (s : List Char) : Option ((Bool × List Char) × List Char) :=
  let (negative, r) := match s with
    | '+' :: r => (false, r)
    | '-' :: r => (true, r)
    | r => (false, r)
  match r.takeWhile Char.isDigit with
  | [] => none
  | digits => some ((negative, digits), r.dropWhile Char.isDigit)

/-- The number with the given sign and digits; an exponent beyond 32 bits is zero or an overflow. -/
def assemble (negative : Bool) (whole : List Char) (fraction : Option (List Char))
    (exponent : Option (Bool × List Char)) : Option JsonNumber :=
  let (significand, dropped) := accumulate 0 whole
  let (full, unused) := accumulate significand (fraction.getD [])
  let shift : Int := (dropped.length : Int) - (((fraction.getD []).length : Int) - unused.length)
  match exponent with
  | some (down, digits) =>
    let size : Nat := digits.foldl (fun n c => n * 10 + (c.toNat - 48)) 0
    if size ≤ Int32.maxValue.toInt then
      floatOf negative full (if down then shift - (size : Int) else shift + (size : Int))
    else if full = 0 ∨ down then some (.float (withSign negative (.ofInt 0)))
    else none
  | none =>
    if fraction.isSome || !dropped.isEmpty then floatOf negative full shift
    else if !negative then some (.natural (UInt64.ofNat full))
    else if full = 0 ∨ -Int64.minValue.toInt < full then
      some (.float (withSign true (.ofInt full)))
    else some (.negative (Int64.ofInt (-full)))

/-- Reads a number after its sign. -/
def readMagnitude (negative : Bool) (s : List Char) : Option (JsonNumber × List Char) := do
  let whole := s.takeWhile Char.isDigit
  let rest := s.dropWhile Char.isDigit
  guard (whole ≠ [] ∧ (whole.head? = some '0' → whole.length = 1))
  let (fraction, rest) ← match rest with
    | '.' :: r =>
      match r.takeWhile Char.isDigit with
      | [] => none
      | digits => some (some digits, r.dropWhile Char.isDigit)
    | r => some (none, r)
  let (exponent, rest) ← match rest with
    | 'e' :: r | 'E' :: r => (readExponent r).map fun (e, r) => (some e, r)
    | r => some (none, r)
  let number ← assemble negative whole fraction exponent
  return (number, rest)

/-- Reads a number. -/
def readNumber : List Char → Option (JsonNumber × List Char)
  | '-' :: r => readMagnitude true r
  | s => readMagnitude false s

/-! ## Strings -/

/-- Reads four hexadecimal digits. -/
def readHex4 : List Char → Option (Nat × List Char)
  | a :: b :: c :: d :: rest => do
    let a ← hexValue? a
    let b ← hexValue? b
    let c ← hexValue? c
    let d ← hexValue? d
    return (((a.val * 16 + b.val) * 16 + c.val) * 16 + d.val, rest)
  | _ => none

/-- Reads what follows a backslash and `u`; a high surrogate needs its low one. -/
def readUnicode (s : List Char) : Option (Char × List Char) := do
  let (unit, rest) ← readHex4 s
  if 0xD800 ≤ unit ∧ unit < 0xDC00 then
    match rest with
    | '\\' :: 'u' :: r =>
      let (low, rest) ← readHex4 r
      guard (0xDC00 ≤ low ∧ low < 0xE000)
      return (Char.ofNat (0x10000 + (unit - 0xD800) * 0x400 + (low - 0xDC00)), rest)
    | _ => none
  else do
    guard (¬(0xDC00 ≤ unit ∧ unit < 0xE000))
    return (Char.ofNat unit, rest)

/-- The character that an escape letter stands for. -/
def escapeValue? : Char → Option Char
  | '"' => some '"'
  | '\\' => some '\\'
  | '/' => some '/'
  | 'b' => some '\x08'
  | 'f' => some '\x0c'
  | 'n' => some '\n'
  | 'r' => some '\r'
  | 't' => some '\t'
  | _ => none

/-- Reads a string up to its closing quote, with at most `fuel` characters. -/
def readString : (fuel : Nat) → List Char → Option (List Char × List Char)
  | 0, _ => none
  | _, [] => none
  | _ + 1, '"' :: rest => some ([], rest)
  | fuel + 1, '\\' :: 'u' :: rest => do
    let (c, rest) ← readUnicode rest
    let (s, rest) ← readString fuel rest
    return (c :: s, rest)
  | fuel + 1, '\\' :: e :: rest => do
    let c ← escapeValue? e
    let (s, rest) ← readString fuel rest
    return (c :: s, rest)
  | fuel + 1, c :: rest => do
    guard (0x20 ≤ c.toNat ∧ c ≠ '\\')
    let (s, rest) ← readString fuel rest
    return (c :: s, rest)

/-! ## Documents -/

mutual

/-- Reads one document after blanks; members stay in the order of the text. -/
def readValue : (fuel : Nat) → List Char → Option (Json × List Char)
  | 0, _ => none
  | fuel + 1, s =>
    match skipBlanks s with
    | '"' :: rest =>
      (readString (fuel + 1) rest).map fun (t, rest) => (.text (String.ofList t), rest)
    | '[' :: rest =>
      match skipBlanks rest with
      | ']' :: rest => some (.array [], rest)
      | rest => (readItems fuel rest).map fun (items, rest) => (.array items, rest)
    | '\x7b' :: rest =>
      match skipBlanks rest with
      | '\x7d' :: rest => some (.object [], rest)
      | rest => (readMembers fuel rest).map fun (members, rest) => (.object members, rest)
    | 'n' :: rest => (expect? "ull".toList rest).map fun rest => (.null, rest)
    | 't' :: rest => (expect? "rue".toList rest).map fun rest => (.bool true, rest)
    | 'f' :: rest => (expect? "alse".toList rest).map fun rest => (.bool false, rest)
    | rest => (readNumber rest).map fun (n, rest) => (.number n, rest)

/-- Reads items up to the closing bracket. -/
def readItems : (fuel : Nat) → List Char → Option (List Json × List Char)
  | 0, _ => none
  | fuel + 1, s => do
    let (item, rest) ← readValue fuel s
    match skipBlanks rest with
    | ',' :: rest =>
      let (items, rest) ← readItems fuel rest
      return (item :: items, rest)
    | ']' :: rest => return ([item], rest)
    | _ => none

/-- Reads members up to the closing brace. -/
def readMembers : (fuel : Nat) → List Char → Option (List (String × Json) × List Char)
  | 0, _ => none
  | fuel + 1, s => do
    match skipBlanks s with
    | '"' :: rest =>
      let (key, rest) ← readString (fuel + 1) rest
      match skipBlanks rest with
      | ':' :: rest =>
        let (value, rest) ← readValue fuel rest
        match skipBlanks rest with
        | ',' :: rest =>
          let (members, rest) ← readMembers fuel rest
          return ((String.ofList key, value) :: members, rest)
        | '\x7d' :: rest => return ([(String.ofList key, value)], rest)
        | _ => none
      | _ => none
    | _ => none

end

/-- Reads a whole text as one document, its members in the order of the text and with repetitions.

Every reading step consumes a character, so twice the length of the text bounds them all. -/
def readRaw? (s : String) : Option Json :=
  let chars := s.toList
  match readValue (2 * chars.length + 2) chars with
  | some (json, rest) => if (skipBlanks rest).isEmpty then some json else none
  | none => none

/-- Reads a whole text as one document. -/
def read? (s : String) : Option Json := (readRaw? s).map sorted

end TypedSql.Json
