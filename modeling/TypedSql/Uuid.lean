import TypedSql.Numeral.Digits
import TypedSql.Text.AsciiCase

/-!
# UUIDs

A UUID is its 32 hexadecimal digits. It is written in lower case with hyphens in groups of 8, 4,
4, 4 and 12; it is read with or without hyphens, in braces, or as a URN, whose head may be in either
case.
-/

namespace TypedSql

open Numeral

/-- A universally unique identifier. -/
structure Uuid where
  digits : List (Fin 16)
  length_eq : digits.length = 32
deriving DecidableEq

namespace Uuid

/-- The identifier with the given digits, if there are 32. -/
def ofDigits? (digits : List (Fin 16)) : Option Uuid :=
  if h : digits.length = 32 then some ⟨digits, h⟩ else none

/-- The hyphenated lower-case form. -/
def text (u : Uuid) : List Char :=
  let s := u.digits.map hexDigit
  s.take 8 ++ '-' :: (s.drop 8).take 4 ++ '-' :: (s.drop 12).take 4 ++ '-' :: (s.drop 16).take 4 ++
    '-' :: s.drop 20

/-- Reads 32 digits. -/
def ofPlain? (s : List Char) : Option Uuid := (s.mapM hexValue?).bind ofDigits?

/-- Reads five groups of digits joined by hyphens. -/
def ofHyphenated? (s : List Char) : Option Uuid :=
  if s.length = 36 ∧ s[8]? = some '-' ∧ s[13]? = some '-' ∧ s[18]? = some '-' ∧
      s[23]? = some '-' then
    ofPlain? (s.take 8 ++ (s.drop 9).take 4 ++ (s.drop 14).take 4 ++ (s.drop 19).take 4 ++
      s.drop 24)
  else none

/-- Reads any accepted form; the length tells the forms apart. -/
def ofText? (s : List Char) : Option Uuid :=
  if s.length = 32 then ofPlain? s
  else if s.length = 36 then ofHyphenated? s
  else if s.length = 38 ∧ s.head? = some '\x7b' ∧ s.getLast? = some '\x7d' then
    ofHyphenated? ((s.drop 1).take 36)
  else if s.length = 45 then
    (Text.dropIgnoringCase "urn:uuid:".toList s).bind ofHyphenated?
  else none

end Uuid

end TypedSql
