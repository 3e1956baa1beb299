import TypedSql.Numeral.Shortest

/-!
# JSON documents

Documents with three kinds of numbers: unsigned integers, negative integers and floats, which
never equal each other. The members of an object are kept in key order without repetition; the
compact text has no blanks.
-/

namespace TypedSql

open Numeral

/-- A number of a JSON document. -/
inductive JsonNumber where
  | natural (value : UInt64)
  | negative (value : Int64)
  | float (value : Binary64)
deriving DecidableEq, Repr

/-- A JSON document. -/
inductive Json where
  | null
  | bool (value : Bool)
  | number (value : JsonNumber)
  | text (value : String)
  | array (items : List Json)
  | object (members : List (String × Json))

namespace JsonNumber

/-- The number for an integer. -/
def ofInt64 (i : Int64) : JsonNumber := if i < 0 then .negative i else .natural i.toUInt64

/-- Equality within one kind of number. -/
def same : JsonNumber → JsonNumber → Bool
  | .natural a, .natural b => a == b
  | .negative a, .negative b => a == b
  | .float a, .float b => a.ieeeEq b
  | _, _ => false

/-- The value as a signed integer; floats have none. -/
def toInt64? : JsonNumber → Option Int64
  | .natural v => if v.toNat ≤ Int64.maxValue.toInt then some v.toInt64 else none
  | .negative v => some v
  | .float _ => none

/-- The value as an unsigned integer; floats have none. -/
def toUInt64? : JsonNumber → Option UInt64
  | .natural v => some v
  | _ => none

/-- The nearest float. -/
def toBinary64 : JsonNumber → Binary64
  | .natural v => .ofInt v.toNat
  | .negative v => .ofInt v.toInt
  | .float v => v

/-- Floats in JSON text: positional from `0.00001`, exponents always signed. -/
def floatLayout : FloatLayout := ⟨-5, true, .toEven⟩

/-- The text of a number. -/
def render : JsonNumber → List Char
  | .natural v => decimal v.toNat
  | .negative v => signed v.toInt
  | .float v => floatLayout.text .wide v.parts

end JsonNumber

namespace Json

/-- One character of a string in JSON text. -/
def escapeChar (c : Char) : List Char :=
  if c = '"' ∨ c = '\\' then ['\\', c]
  else if c.toNat = 8 then ['\\', 'b']
  else if c.toNat = 12 then ['\\', 'f']
  else if c = '\n' then ['\\', 'n']
  else if c = '\r' then ['\\', 'r']
  else if c = '\t' then ['\\', 't']
  else if c.toNat < 0x20 then '\\' :: 'u' :: '0' :: '0' :: hexByte c.toUInt8
  else [c]

/-- A string in JSON text. -/
def quote (s : String) : List Char := '"' :: (s.toList.flatMap escapeChar ++ ['"'])

mutual

/-- The compact text of a document. -/
def render : Json → List Char
  | .null => "null".toList
  | .bool b => if b then "true".toList else "false".toList
  | .number n => n.render
  | .text s => quote s
  | .array items => '[' :: (renderItems items ++ [']'])
  | .object members => '\x7b' :: (renderMembers members ++ ['\x7d'])

/-- Items separated by commas. -/
def renderItems : List Json → List Char
  | [] => []
  | [item] => item.render
  | item :: rest => item.render ++ ',' :: renderItems rest

/-- Members separated by commas. -/
def renderMembers : List (String × Json) → List Char
  | [] => []
  | [(key, value)] => quote key ++ ':' :: value.render
  | (key, value) :: rest => quote key ++ ':' :: value.render ++ ',' :: renderMembers rest

end

mutual

/-- Equality of documents, floats by value. -/
def same : Json → Json → Bool
  | .null, .null => true
  | .bool a, .bool b => a == b
  | .number a, .number b => a.same b
  | .text a, .text b => a == b
  | .array a, .array b => sameItems a b
  | .object a, .object b => sameMembers a b
  | _, _ => false

/-- Equality of items in order. -/
def sameItems : List Json → List Json → Bool
  | [], [] => true
  | a :: as, b :: bs => a.same b && sameItems as bs
  | _, _ => false

/-- Equality of members in key order. -/
def sameMembers : List (String × Json) → List (String × Json) → Bool
  | [], [] => true
  | (k, a) :: as, (l, b) :: bs => k == l && a.same b && sameMembers as bs
  | _, _ => false

end

/-- Members in key order with one added; an equal key is replaced. -/
def insertMember (key : String) (value : Json) : List (String × Json) → List (String × Json)
  | [] => [(key, value)]
  | (k, v) :: rest =>
    if key < k then (key, value) :: (k, v) :: rest
    else if key = k then (key, value) :: rest
    else (k, v) :: insertMember key value rest

mutual

/-- The document with the members of every object in key order, the last of equal keys winning. -/
def sorted : Json → Json
  | .array items => .array (sortedItems items)
  | .object members => .object (sortedMembers [] members)
  | json => json

/-- Every item sorted. -/
def sortedItems : List Json → List Json
  | [] => []
  | item :: rest => item.sorted :: sortedItems rest

/-- Members inserted one after the other. -/
def sortedMembers (done : List (String × Json)) : List (String × Json) → List (String × Json)
  | [] => done
  | (key, value) :: rest => sortedMembers (insertMember key value.sorted done) rest

end

end Json

end TypedSql
