import TypedSql.Text.Blank
import TypedSql.Text.AsciiCase
import TypedSql.Numeral.Digits

/-!
# Names and facets of scalar store types

A scalar store type is a base name with an optional suffix of one or two facets, such as
`NUMERIC(10, 2)`. Composite store types start with `ARRAY<` or `STRUCT<` in any case and have
neither base name nor facets of their own.
-/

namespace TypedSql.StoreType

open Text Numeral

/-- The start of an array type, up to the opening bracket. -/
def arrayHead : List Char := "ARRAY<".toList

/-- The start of a struct type, up to the opening bracket. -/
def structHead : List Char := "STRUCT<".toList

/-- Whether a store type starts as an array or a struct. -/
def isComposite (s : List Char) : Bool :=
  (dropIgnoringCase structHead (trimStart s)).isSome ||
    (dropIgnoringCase arrayHead (trimStart s)).isSome

/-- A scalar store type without its facets; a composite one unchanged. -/
def baseName (s : List Char) : List Char :=
  let t := trim s
  if isComposite t then t
  else match splitFirst (· == '(') t with
    | some (before, _) => trimEnd before
    | none => t

/-- The text before a final closing parenthesis. -/
def dropClosing? (s : List Char) : Option (List Char) :=
  if s.getLast? = some ')' then some s.dropLast else none

/-- The facets of a scalar store type: precision or size, and perhaps a scale. -/
def facets? (s : List Char) : Option (UInt32 × Option UInt32) := do
  let t := trim s
  guard (!isComposite t)
  let (_, suffix) ← splitFirst (· == '(') t
  let inner ← dropClosing? suffix
  match splitFirst (· == ',') inner with
  | some (first, second) =>
    let precision ← count32? (trim first)
    let scale ← count32? (trim second)
    return (precision, some scale)
  | none =>
    let precision ← count32? (trim inner)
    return (precision, none)

/-- A base name with facets; a scale needs a precision. -/
def withFacets (base : List Char) (precision scale : Option UInt32) : List Char :=
  match precision, scale with
  | some p, some s => base ++ '(' :: decimal p.toNat ++ ',' :: ' ' :: decimal s.toNat ++ [')']
  | some p, none => base ++ '(' :: decimal p.toNat ++ [')']
  | none, _ => base

end TypedSql.StoreType
