import TypedSql.Expr.Construct
import TypedSql.Operation.Basic

/-!
# Numeric functions

A receiver counts as the first argument. Decimals stay decimals under most functions; everything
else gives a float.
-/

namespace TypedSql.MathOp

/-- How the mapping of a result follows from the arguments. -/
inductive ResultRule where
  /-- That of the first argument. -/
  | first
  /-- That of the first argument if it is a decimal, else a float. -/
  | decimalOrFloat
  /-- The common one of all arguments, else a float. -/
  | common
  | float
  | integer
deriving DecidableEq, Repr

/-- The function for an operation on a number of arguments; `integers` tells whether all of them
are integers. -/
def function? (op : MathOp) (count : Nat) (integers : Bool) : Option (String × ResultRule) :=
  match op, count with
  | .abs, 1 => some ("ABS", .first)
  | .sign, 1 => some ("SIGN", .first)
  | .max, _ => if 2 ≤ count then some ("GREATEST", .common) else none
  | .min, _ => if 2 ≤ count then some ("LEAST", .common) else none
  | .ceiling, 1 => some ("CEIL", .decimalOrFloat)
  | .floor, 1 => some ("FLOOR", .decimalOrFloat)
  | .round, 1 | .round, 2 => some ("ROUND", .decimalOrFloat)
  | .truncate, 1 => some ("TRUNC", .decimalOrFloat)
  | .pow, 2 => some ("POW", .decimalOrFloat)
  | .sqrt, 1 => some ("SQRT", .decimalOrFloat)
  | .exp, 1 => some ("EXP", .decimalOrFloat)
  | .ln, 1 | .log, 1 => some ("LN", .decimalOrFloat)
  | .log, 2 => some ("LOG", .decimalOrFloat)
  | .log10, 1 => some ("LOG10", .decimalOrFloat)
  | .sin, 1 => some ("SIN", .float)
  | .cos, 1 => some ("COS", .float)
  | .tan, 1 => some ("TAN", .float)
  | .asin, 1 => some ("ASIN", .float)
  | .acos, 1 => some ("ACOS", .float)
  | .atan, 1 => some ("ATAN", .float)
  | .atan2, 2 => some ("ATAN2", .float)
  | .divide, 2 => if integers then some ("DIV", .integer) else some ("IEEE_DIVIDE", .float)
  | _, _ => none

/-- The mapping shared by all typed arguments, else a float. -/
def commonMapping (args : List Expr) : Mapping :=
  match args.filterMap Expr.mapping? with
  | [] => Builtin.float64.mapping
  | first :: rest =>
    if rest.all fun m => m.storeType == first.storeType then first else Builtin.float64.mapping

/-- The mapping of a result. -/
def ResultRule.mapping (rule : ResultRule) (first : Mapping) (args : List Expr) : Mapping :=
  match rule with
  | .first => first
  | .decimalOrFloat => if first.hasKind .decimal then first else Builtin.float64.mapping
  | .common => commonMapping args
  | .float => Builtin.float64.mapping
  | .integer => Builtin.int64.mapping

/-- The call for an operation; the first argument has to show a type. -/
def toExpr? (op : MathOp) (c : Catalog) (receiver : Option Expr) (args : List Expr) :
    Option Expr := do
  let args := (receiver.toList ++ args).map (Expr.applyDefault c)
  let first ← args.head?.bind Expr.mapping?
  let integers := args.all fun a => a.mapping?.any (·.hasKind .int64)
  let (name, rule) ← op.function? args.length integers
  return Expr.function c name args (rule.mapping first args)

end TypedSql.MathOp
