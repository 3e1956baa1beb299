import TypedSql.StoreType.Composite

/-!
# Writing store types

Array and struct types put together from their parts, and the removal of facets at every level.
Field names that are no plain identifiers, or are reserved, are quoted.
-/

namespace TypedSql.StoreType

open Text

/-- The words that cannot stand as names unquoted. -/
def reservedWords : List String :=
  ["ALL", "AND", "ANY", "ARRAY", "AS", "ASC", "ASSERT_ROWS_MODIFIED", "AT", "BETWEEN", "BY",
    "CASE", "CAST", "COLLATE", "CONTAINS", "CREATE", "CROSS", "CUBE", "CURRENT", "DEFAULT",
    "DEFINE", "DESC", "DISTINCT", "ELSE", "END", "ENUM", "ESCAPE", "EXCEPT", "EXCLUDE", "EXISTS",
    "EXTRACT", "FALSE", "FETCH", "FOLLOWING", "FOR", "FROM", "FULL", "GROUP", "GROUPING",
    "GROUPS", "HASH", "HAVING", "IF", "IGNORE", "IN", "INNER", "INTERSECT", "INTERVAL", "INTO",
    "IS", "JOIN", "LATERAL", "LEFT", "LIKE", "LIMIT", "LOOKUP", "MERGE", "NATURAL", "NEW", "NO",
    "NOT", "NULL", "NULLS", "OF", "ON", "OR", "ORDER", "OUTER", "OVER", "PARTITION", "PRECEDING",
    "PROTO", "QUALIFY", "RANGE", "RECURSIVE", "RESPECT", "RIGHT", "ROLLUP", "ROWS", "SELECT",
    "SET", "SOME", "STRUCT", "TABLESAMPLE", "THEN", "TO", "TREAT", "TRUE", "UNBOUNDED", "UNION",
    "UNNEST", "USING", "WHEN", "WHERE", "WINDOW", "WITH", "WITHIN"]

/-- A reserved word in any case. -/
def isReserved (name : List Char) : Bool :=
  reservedWords.any fun word => sameIgnoringCase word.toList name

/-- An ASCII letter or underscore followed by ASCII letters, digits and underscores. -/
def isPlainIdentifier : List Char → Bool
  | [] => false
  | c :: rest => (c.isAlpha || c == '_') && rest.all fun c => c.isAlphanum || c == '_'

/-- A field name, quoted where it has to be. -/
def fieldName (name : List Char) : List Char :=
  if isPlainIdentifier name && !isReserved name then name else quotedName name

/-- One field of a struct type; without a name only its type is written. -/
def fieldText (name type : List Char) : List Char :=
  if name.isEmpty then type else fieldName name ++ ' ' :: type

/-- Texts separated by a comma and a blank. -/
def commaSeparated (texts : List (List Char)) : List Char := ", ".toList.intercalate texts

/-- The array type of an element type. -/
def arrayOf (element : List Char) : List Char := arrayHead ++ element ++ ['>']

/-- The struct type of named field types. -/
def structOf (fields : List (List Char × List Char)) : List Char :=
  structHead ++ commaSeparated (fields.map fun (name, type) => fieldText name type) ++ ['>']

/-- Text without parenthesized parts outside quoted names, nor the blanks in front of them.

`kept` holds what has been kept so far, last character first. -/
def stripFrom : Scan → Nat → List Char → List Char → List Char
  | _, _, kept, [] => kept.reverse
  | .plain, 0, kept, c :: rest =>
    if c = '(' then stripFrom .plain 1 (kept.dropWhile isBlank) rest
    else stripFrom (Scan.next .plain c) 0 (c :: kept) rest
  | .plain, depth + 1, kept, c :: rest =>
    if c = '(' then stripFrom .plain (depth + 2) kept rest
    else if c = ')' then stripFrom .plain depth kept rest
    else stripFrom .plain (depth + 1) kept rest
  | scan, depth, kept, c :: rest => stripFrom (scan.next c) depth (c :: kept) rest

/-- A store type without facets at any level. -/
def stripFacets (s : List Char) : List Char := stripFrom .plain 0 [] s

end TypedSql.StoreType
