import TypedSql.Catalog.Resolve
import TypedSql.Expr.Traverse
import TypedSql.Literal.Basic
import TypedSql.Sql.Lexeme
import TypedSql.Wire.Parameters

/-!
# Writing SQL

An expression written as SQL text, its parameters collected in a list on the way. Operands are
parenthesized where they bind looser than their place. The first fault is kept; later nodes are
still visited, and bind their parameters.
-/

namespace TypedSql.Sql

open Text

/-- What writing depends on: the catalog, and the names that generated parameters avoid. -/
structure Context where
  catalog : Catalog
  reserved : List String

/-- What writing changes: the parameters bound so far and the first fault. -/
structure Progress where
  parameters : List Parameter
  fault : Option Fault

/-- A step of writing, which yields pieces of text. -/
abbrev Emit := StateM Progress (List Lexeme)

/-- Records a fault, unless there was one before. -/
def fail (fault : Fault) : Emit := do
  modify fun s => ⟨s.parameters, s.fault.or (some fault)⟩
  return []

/-- Binds a parameter and yields its placeholder. -/
def bind (ctx : Context) (p : Parameter) (m : Mapping) : Emit := do
  match p.configure ctx.catalog.settings m with
  | .error fault => fail (fault.inside (.bindingParameter p.name))
  | .ok configured =>
    let s ← get
    let (name, parameters) := Parameters.push s.parameters configured
    set (Progress.mk parameters s.fault)
    return [.word (ctx.catalog.settings.effectiveMarker.toList ++ name.toList)]

/-- Writes a constant of a mapping, as a literal or as a parameter under a generated name. -/
def typedConstant (ctx : Context) (m : Mapping) (v : Value) : Emit := do
  if ctx.catalog.settings.inlineConstants then
    match Literal.literal m v with
    | .error fault => fail fault
    | .ok text => return [.word text]
  else
    let s ← get
    let name := Parameters.freshName (ctx.reserved ++ Parameters.names s.parameters) 0
    bind ctx (.of name v) m

/-- Writes a constant; without a mapping of its own it takes that of its value. -/
def constant (ctx : Context) (m : Option Mapping) (v : Value) : Emit :=
  match m with
  | some m => typedConstant ctx m v
  | none =>
    if v.isNull then return [.word "NULL".toList]
    else
      match ctx.catalog.resolveValue v with
      | some m => typedConstant ctx m v
      | none => fail (.of (.feature (.untypedConstant v)))

/-- Whether an operand binds looser than a strength. -/
def looserThan (e : Expr) (strength : Nat) : Bool :=
  e.precedence?.any fun p => decide (p < strength)

/-- Whether an operand binds exactly as tightly as a strength. -/
def asTightAs (e : Expr) (strength : Nat) : Bool := e.precedence? == some strength

/-- Whether an operand repeats an associative operator. -/
def repeats (op : BinaryOp) : Expr → Bool
  | .binary _ inner _ _ => op.isAssociative && inner == op
  | _ => false

/-- Whether the left operand of an operator stands in parentheses. -/
def leftGrouped (op : BinaryOp) (e : Expr) : Bool :=
  looserThan e op.precedence || (asTightAs e op.precedence && op.isComparison)

/-- Whether the right operand of an operator stands in parentheses. -/
def rightGrouped (op : BinaryOp) (e : Expr) : Bool :=
  looserThan e op.precedence || (asTightAs e op.precedence && !repeats op e)

/-- Whether the operand of a unary operator stands in parentheses; two minus signs in a row would
start a comment. -/
def unaryGrouped (op : UnaryOp) (e : Expr) : Bool :=
  looserThan e (op.precedence + 1) || (op == .negate && e.isConstant)

/-- Whether the item of a membership test stands in parentheses. -/
def itemGrouped (e : Expr) : Bool := looserThan e (BinaryOp.eq.precedence + 1)

/-- Whether an operand in front of an index or a field stands in parentheses. -/
def baseGrouped (e : Expr) : Bool := e.precedence?.isSome

/-- Pieces in parentheses where asked. -/
def grouped (paren : Bool) (pieces : List Lexeme) : List Lexeme :=
  if paren then .openParen :: (pieces ++ [.closeParen]) else pieces

/-- A column, qualified by its table if it has one. -/
def columnText (table : Option String) (name : String) : List Char :=
  match table with
  | some t => quotedName t.toList ++ '.' :: quotedName name.toList
  | none => quotedName name.toList

mutual

/-- Writes an expression. -/
def emit (ctx : Context) : Expr → Emit
  | .array elements _ _ mapping =>
    match mapping with
    | none => fail (.of (.feature .untypedArray))
    | some m => do
      let items ← emitAll ctx elements
      return .word m.literalStoreType.toList :: .openBracket :: (items ++ [.closeBracket])
  | .binary l op r _ => do
    let left ← emit ctx l
    let right ← emit ctx r
    return grouped (leftGrouped op l) left ++ .binary op :: grouped (rightGrouped op r) right
  | .cast x m => do
    let operand ← emit ctx x
    return .openCast :: (operand ++ [.castType, .word m.storeType.toList, .closeParen])
  | .column table name _ => return [.word (columnText table name)]
  | .constant value mapping => constant ctx mapping value
  | .call name args _ => do
    let items ← emitAll ctx args
    return .word name.toList :: .openParen :: (items ++ [.closeParen])
  | .inUnnest item arr _ => do
    let left ← emit ctx item
    let right ← emit ctx arr
    return grouped (itemGrouped item) left ++ .inUnnest :: (right ++ [.closeParen])
  | .index arr idx mode _ => do
    let base ← emit ctx arr
    let position ← emit ctx idx
    return grouped (baseGrouped arr) base ++ .openIndex mode :: (position ++ [.closeIndex])
  | .member x name _ => do
    let base ← emit ctx x
    return grouped (baseGrouped x) base ++ [.field (quotedName name.toList)]
  | .parameter name value m => bind ctx (.of name value) m
  | .unary op x _ => do
    let operand ← emit ctx x
    return .unary op :: grouped (unaryGrouped op x) operand

/-- Writes expressions separated by commas. -/
def emitAll (ctx : Context) : List Expr → Emit
  | [] => return []
  | e :: rest => do
    let first ← emit ctx e
    let others ← emitAll ctx rest
    return first ++ (if rest.isEmpty then [] else .comma :: others)

end

/-- The pieces of an expression, and what writing has changed. -/
def lexemes (c : Catalog) (e : Expr) (parameters : List Parameter) : List Lexeme × Progress :=
  (emit ⟨c, e.parameterNames⟩ e).run ⟨parameters, none⟩

/-- The text of an expression or the first fault, and the parameters after writing it. -/
def write (c : Catalog) (e : Expr) (parameters : List Parameter) :
    Result String × List Parameter :=
  let (pieces, progress) := lexemes c e parameters
  match progress.fault with
  | some fault => (.error fault, progress.parameters)
  | none => (.ok (String.ofList (Lexeme.textOfAll pieces)), progress.parameters)

end TypedSql.Sql
