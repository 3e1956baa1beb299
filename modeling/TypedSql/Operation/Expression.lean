import TypedSql.Geography
import TypedSql.Operation.Math

/-!
# Expressions of operations

A host operation becomes the SQL expression of its family, if that family is among those asked.
Sequences are arrays: their length, elements and members, and sequences made of element expressions,
where elements that are all constants make one constant list. Methods of strings are functions;
positions count from zero in the host and from one in SQL.
-/

namespace TypedSql

/-! ## Sequences -/

namespace SequenceOp

/-- The sequence of the given elements, if their type has a mapping. -/
def ofElements (c : Catalog) (elementType : HostType) (elements : List Expr) : Option Expr :=
  if elements.all Expr.isConstant then
    (c.resolveType (.listOf elementType)).map fun m =>
      Expr.typedConstant (.list (elements.filterMap Expr.value?)) m
  else
    match Expr.arrayLiteral c elements elementType with
    | .ok e => some e
    | .error _ => none

/-- The expression for an operation on an array. -/
def apply (op : SequenceOp) (c : Catalog) (receiver : Expr) (args : List Expr) : Option Expr :=
  match op, args with
  | .length, [] | .count, [] =>
    some (Expr.function c "ARRAY_LENGTH" [receiver] Builtin.int64.mapping)
  | .elementAt, [position] => some (Expr.elementAt c receiver position .offset)
  | .elementAtOrDefault, [position] => some (Expr.elementAt c receiver position .safeOffset)
  | .first, [] => some (Expr.elementAt c receiver (Expr.ofValue c (.i64 0)) .offset)
  | .firstOrDefault, [] => some (Expr.elementAt c receiver (Expr.ofValue c (.i64 0)) .safeOffset)
  | .contains, [item] => some (Expr.membership c item receiver)
  | _, _ => none

/-- The expression for an operation, if the receiver is an array. -/
def toExpr? (op : SequenceOp) (c : Catalog) (receiver : Option Expr) (args : List Expr) :
    Option Expr :=
  match op with
  | .fromElements elementType => ofElements c elementType args
  | op => do
    let receiver ← receiver
    let m ← receiver.mapping?
    guard m.isArray
    op.apply c receiver args

end SequenceOp

/-! ## Strings -/

namespace StringOp

/-- The function for an operation that is a plain call, the number of its arguments after the
receiver and the store type of its result. -/
def function? : StringOp → Option (String × Nat × Builtin)
  | .length => some ("LENGTH", 0, .int64)
  | .toUpper => some ("UPPER", 0, .string)
  | .toLower => some ("LOWER", 0, .string)
  | .trim => some ("TRIM", 0, .string)
  | .trimStart => some ("LTRIM", 0, .string)
  | .trimEnd => some ("RTRIM", 0, .string)
  | .startsWith => some ("STARTS_WITH", 1, .bool)
  | .endsWith => some ("ENDS_WITH", 1, .bool)
  | .replace => some ("REPLACE", 2, .string)
  | .contains | .indexOf | .substring => none

/-- The expression for an operation on a string. -/
def apply (op : StringOp) (c : Catalog) (receiver : Expr) (args : List Expr) : Option Expr :=
  let call (name : String) (result : Builtin) : Expr :=
    Expr.function c name
      ((receiver :: args).map fun a => Expr.applyMapping c a Builtin.string.mapping) result.mapping
  let number (e : Expr) : Expr := Expr.applyMapping c e Builtin.int64.mapping
  match op, args with
  | .contains, [_] =>
    some (Expr.operation c (call "STRPOS" .int64) .gt (Expr.ofValue c (.i64 0)))
  | .indexOf, [_] =>
    some (Expr.operation c (call "STRPOS" .int64) .subtract (Expr.ofValue c (.i64 1)))
  | .substring, start :: rest =>
    if rest.length ≤ 1 then
      let position := Expr.operation c (number start) .add (Expr.ofValue c (.i64 1))
      some (Expr.function c "SUBSTR"
        (Expr.applyMapping c receiver Builtin.string.mapping :: position :: rest.map number)
        Builtin.string.mapping)
    else none
  | op, args =>
    match op.function? with
    | some (name, count, result) => if args.length = count then some (call name result) else none
    | none => none

/-- The expression for an operation, if the receiver is a string. -/
def toExpr? (op : StringOp) (c : Catalog) (receiver : Option Expr) (args : List Expr) :
    Option Expr := do
  let receiver ← receiver
  let m ← receiver.mapping?
  guard (m.hasKind .string)
  op.apply c receiver args

end StringOp

/-! ## All families -/

namespace Operation

/-- The expression for an operation, by its own family. -/
def toExpr? (op : Operation) (c : Catalog) (receiver : Option Expr) (args : List Expr) :
    Option Expr :=
  match op with
  | .sequence op => op.toExpr? c receiver args
  | .math op => op.toExpr? c receiver args
  | .geography op => op.toExpr? c receiver args
  | .string op => op.toExpr? c receiver args

/-- The expression for an operation, by the first of some families that has one. -/
def toExprAmong? (families : List Family) (op : Operation) (c : Catalog) (receiver : Option Expr)
    (args : List Expr) : Option Expr :=
  families.findSome? fun family => if op.family = family then op.toExpr? c receiver args else none

end Operation

end TypedSql
