/-!
# Operators

The unary and binary operators of SQL expressions, with their spelling and how tightly they bind.
-/

namespace TypedSql

/-- The binary operators. -/
inductive BinaryOp where
  | eq | ne | ge | gt | le | lt
  | and | or
  | add | subtract | multiply | divide
  | concat
deriving DecidableEq, Repr

namespace BinaryOp

/-- All binary operators. -/
def all : List BinaryOp :=
  [.eq, .ne, .ge, .gt, .le, .lt, .and, .or, .add, .subtract, .multiply, .divide, .concat]

/-- The spelling of an operator. -/
def text : BinaryOp → String
  | .eq => "="
  | .ne => "<>"
  | .ge => ">="
  | .gt => ">"
  | .le => "<="
  | .lt => "<"
  | .and => "AND"
  | .or => "OR"
  | .add => "+"
  | .subtract => "-"
  | .multiply => "*"
  | .divide => "/"
  | .concat => "||"

/-- Comparisons. -/
def isComparison : BinaryOp → Bool
  | .eq | .ne | .ge | .gt | .le | .lt => true
  | _ => false

/-- Operators on truth values. -/
def isLogical : BinaryOp → Bool
  | .and | .or => true
  | _ => false

/-- Operators on numbers. -/
def isArithmetic : BinaryOp → Bool
  | .add | .subtract | .multiply | .divide => true
  | _ => false

/-- Operators for which grouping does not matter. -/
def isAssociative : BinaryOp → Bool
  | .and | .or | .add | .multiply | .concat => true
  | _ => false

/-- How tightly an operator binds. -/
def precedence : BinaryOp → Nat
  | .or => 1
  | .and => 2
  | .eq | .ne | .ge | .gt | .le | .lt => 4
  | .add | .subtract => 5
  | .multiply | .divide | .concat => 6

end BinaryOp

/-- The unary operators. -/
inductive UnaryOp where
  | not
  | negate
deriving DecidableEq, Repr

namespace UnaryOp

/-- The spelling of an operator, with the blank after a word. -/
def text : UnaryOp → String
  | .not => "NOT "
  | .negate => "-"

/-- How tightly an operator binds. -/
def precedence : UnaryOp → Nat
  | .not => 3
  | .negate => 7

end UnaryOp

end TypedSql
