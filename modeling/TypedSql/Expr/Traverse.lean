import TypedSql.Expr.Basic

/-!
# Walking and rebuilding expressions

All nodes of an expression, children before parents and siblings from left to right, and the
rebuilding of an expression in the same order by a function on nodes.
-/

namespace TypedSql.Expr

mutual

/-- All nodes, children before parents. -/
def nodes (e : Expr) : List Expr :=
  match e with
  | .array elements _ _ _ => nodesOfAll elements ++ [e]
  | .binary l _ r _ => l.nodes ++ r.nodes ++ [e]
  | .cast x _ => x.nodes ++ [e]
  | .column .. => [e]
  | .constant .. => [e]
  | .call _ args _ => nodesOfAll args ++ [e]
  | .inUnnest item arr _ => item.nodes ++ arr.nodes ++ [e]
  | .index arr idx _ _ => arr.nodes ++ idx.nodes ++ [e]
  | .member x _ _ => x.nodes ++ [e]
  | .parameter .. => [e]
  | .unary _ x _ => x.nodes ++ [e]

/-- All nodes of several expressions in order. -/
def nodesOfAll : List Expr → List Expr
  | [] => []
  | e :: rest => e.nodes ++ nodesOfAll rest

end

variable {m : Type → Type} [Monad m]

mutual

/-- Rebuilds an expression from its leaves, passing every node to `f` once its children are
rebuilt. -/
def transformM (f : Expr → m Expr) (e : Expr) : m Expr :=
  match e with
  | .array elements elementType elementMapping mapping => do
    let elements ← transformAllM f elements
    f (.array elements elementType elementMapping mapping)
  | .binary l op r mapping => do
    let l ← transformM f l
    let r ← transformM f r
    f (.binary l op r mapping)
  | .cast x mapping => do
    let x ← transformM f x
    f (.cast x mapping)
  | .column table name mapping => f (.column table name mapping)
  | .constant value mapping => f (.constant value mapping)
  | .call name args mapping => do
    let args ← transformAllM f args
    f (.call name args mapping)
  | .inUnnest item arr mapping => do
    let item ← transformM f item
    let arr ← transformM f arr
    f (.inUnnest item arr mapping)
  | .index arr idx mode mapping => do
    let arr ← transformM f arr
    let idx ← transformM f idx
    f (.index arr idx mode mapping)
  | .member x field mapping => do
    let x ← transformM f x
    f (.member x field mapping)
  | .parameter name value mapping => f (.parameter name value mapping)
  | .unary op x mapping => do
    let x ← transformM f x
    f (.unary op x mapping)

/-- Rebuilds several expressions in order. -/
def transformAllM (f : Expr → m Expr) : List Expr → m (List Expr)
  | [] => pure []
  | e :: rest => do
    let e ← transformM f e
    let rest ← transformAllM f rest
    return e :: rest

end

/-- Rebuilds an expression by a plain function. -/
def transform (f : Expr → Expr) (e : Expr) : Expr := Id.run (transformM (fun e => pure (f e)) e)

/-- The names of the parameters in an expression, in order. -/
def parameterNames (e : Expr) : List String :=
  e.nodes.filterMap fun node => match node with
    | .parameter name _ _ => some name
    | _ => none

/-! ## Changes of single nodes -/

/-- Adds one to a 64-bit integer constant. -/
def increment : Expr → Expr
  | .constant (.i64 n) mapping => .constant (.i64 (n + 1)) mapping
  | e => e

/-- Negates a column. -/
def negateColumn (e : Expr) : Expr :=
  match e with
  | .column _ _ mapping => .unary .negate e (some mapping)
  | e => e

/-- Forgets the mapping of a node that can go without one. -/
def untype : Expr → Expr
  | .array elements elementType _ _ => .array elements elementType none none
  | .binary l op r _ => .binary l op r none
  | .constant value _ => .constant value none
  | .inUnnest item arr _ => .inUnnest item arr none
  | .index arr idx mode _ => .index arr idx mode none
  | .unary op x _ => .unary op x none
  | e => e

/-- Replaces a call of one argument by the argument. -/
def unwrapCall : Expr → Expr
  | .call _ [arg] _ => arg
  | e => e

end TypedSql.Expr
