import TypedSql.HostType.Basic

/-!
# Host operations

The member accesses and method calls of host values that have a counterpart in SQL.
-/

namespace TypedSql

/-- Operations on sequences. -/
inductive SequenceOp where
  | length
  | count
  /-- The element at a position, which has to exist. -/
  | elementAt
  /-- The element at a position, or null. -/
  | elementAtOrDefault
  | first
  | firstOrDefault
  | contains
  /-- A sequence made of the arguments. -/
  | fromElements (elementType : HostType)

/-- Operations on numbers. -/
inductive MathOp where
  | abs | ceiling | floor
  /-- To an integer, or to a number of digits. -/
  | round
  | truncate | pow | sqrt | exp
  /-- The natural logarithm. -/
  | ln
  /-- The natural logarithm, or the one to a base. -/
  | log
  | log10
  | sin | cos | tan | asin | acos | atan | atan2
  | sign
  | max | min
  /-- Division, with truncation between integers. -/
  | divide
deriving DecidableEq, Repr

/-- Operations on geographies. -/
inductive GeographyOp where
  | area | length | perimeter | x | y | z | m
  | isEmpty
  /-- The rings of a polygon, counted on its boundary. -/
  | numRings
  | numPoints | dimension | isClosed
  | boundary | centroid | convexHull | startPoint | endPoint
  | geometryType | asText
  | contains | coveredBy | covers | intersects | touches | within | disjoint
  | equalsTopologically | overlaps
  | buffer | union | difference | intersection
  | distance | isWithinDistance
  /-- The point at a position, counted from zero. -/
  | pointN
deriving DecidableEq, Repr

/-- Operations on strings. -/
inductive StringOp where
  | length | contains | startsWith | endsWith
  | toUpper | toLower
  | trim | trimStart | trimEnd
  /-- A part from a position counted from zero, perhaps of a given length. -/
  | substring
  | replace
  /-- The position of the first match counted from zero, or -1. -/
  | indexOf
deriving DecidableEq, Repr

/-- A host operation. -/
inductive Operation where
  | sequence (op : SequenceOp)
  | math (op : MathOp)
  | geography (op : GeographyOp)
  | string (op : StringOp)

/-- The families of operations. -/
inductive Family where
  | sequence
  | math
  | geography
  | string
deriving DecidableEq, Repr

/-- The family of an operation. -/
def Operation.family : Operation → Family
  | .sequence _ => .sequence
  | .math _ => .math
  | .geography _ => .geography
  | .string _ => .string

/-- All families. -/
def Family.all : List Family := [.sequence, .math, .geography, .string]

end TypedSql
