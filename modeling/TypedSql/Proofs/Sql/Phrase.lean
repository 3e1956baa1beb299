import TypedSql.Sql.Emission

/-!
# Phrases

The structure that an SQL expression has once it is read: operators and their operands, without
parentheses. The outline of an expression is its own structure as a phrase. Every node stands for
the node of the same kind, and a column, constant or parameter for the word that is written at its
place; mappings are left out.
-/

namespace TypedSql.Sql

open Text

/-- The structure of an SQL expression. -/
inductive Phrase where
  | word (text : List Char)
  | array (type : List Char) (items : List Phrase)
  | binary (left : Phrase) (op : BinaryOp) (right : Phrase)
  | cast (operand : Phrase) (type : List Char)
  | call (name : List Char) (args : List Phrase)
  | inUnnest (item array : Phrase)
  | index (array position : Phrase) (mode : IndexMode)
  | member (operand : Phrase) (field : List Char)
  | unary (op : UnaryOp) (operand : Phrase)

instance : Inhabited Phrase := ⟨.word []⟩

namespace Phrase

/-- Induction over phrases, with the parts of calls and arrays as members of their lists. -/
@[induction_eliminator]
theorem induct {motive : Phrase → Prop}
    (word : ∀ text, motive (.word text))
    (array : ∀ type items, (∀ t ∈ items, motive t) → motive (.array type items))
    (binary : ∀ left op right, motive left → motive right → motive (.binary left op right))
    (cast : ∀ operand type, motive operand → motive (.cast operand type))
    (call : ∀ name args, (∀ t ∈ args, motive t) → motive (.call name args))
    (inUnnest : ∀ item array, motive item → motive array → motive (.inUnnest item array))
    (index : ∀ array position mode, motive array → motive position →
      motive (.index array position mode))
    (member : ∀ operand field, motive operand → motive (.member operand field))
    (unary : ∀ op operand, motive operand → motive (.unary op operand)) (t : Phrase) :
    motive t := by
  refine @Phrase.rec motive (fun items => ∀ t ∈ items, motive t) word array binary cast call
    inUnnest index member unary ?_ ?_ t
  · intro _ h
    exact absurd h List.not_mem_nil
  · rintro first rest hfirst hrest t ht
    rcases List.mem_cons.mp ht with rfl | ht
    · exact hfirst
    · exact hrest t ht

/-- The operator of a binary phrase. -/
def operator? : Phrase → Option BinaryOp
  | .binary _ op _ => some op
  | _ => none

end Phrase

/-- The word that a step of writing yields. -/
def wordOf (step : Emit) : StateM Progress Phrase := do
  return .word (Lexeme.textOfAll (← step))

mutual

/-- The structure of an expression, its leaves written in order. -/
def outline (ctx : Context) : Expr → StateM Progress Phrase
  | .array elements _ _ mapping =>
    match mapping with
    | none => wordOf (fail (.of (.feature .untypedArray)))
    | some m => do
      let items ← outlineAll ctx elements
      return .array m.literalStoreType.toList items
  | .binary l op r _ => do
    let left ← outline ctx l
    let right ← outline ctx r
    return .binary left op right
  | .cast x m => do
    let operand ← outline ctx x
    return .cast operand m.storeType.toList
  | .column table name _ => return .word (columnText table name)
  | .constant value mapping => wordOf (constant ctx mapping value)
  | .call name args _ => do
    let args ← outlineAll ctx args
    return .call name.toList args
  | .inUnnest item arr _ => do
    let item ← outline ctx item
    let array ← outline ctx arr
    return .inUnnest item array
  | .index arr idx mode _ => do
    let array ← outline ctx arr
    let position ← outline ctx idx
    return .index array position mode
  | .member x name _ => do
    let operand ← outline ctx x
    return .member operand (quotedName name.toList)
  | .parameter name value m => wordOf (bind ctx (.of name value) m)
  | .unary op x _ => do
    let operand ← outline ctx x
    return .unary op operand

/-- The structures of several expressions. -/
def outlineAll (ctx : Context) : List Expr → StateM Progress (List Phrase)
  | [] => return []
  | e :: rest => do
    let first ← outline ctx e
    let others ← outlineAll ctx rest
    return first :: others

end

/-- The structure of an expression that is written from a list of parameters on. -/
def outlineOf (c : Catalog) (e : Expr) (parameters : List Parameter) : Phrase :=
  ((outline ⟨c, e.parameterNames⟩ e).run ⟨parameters, none⟩).1

end TypedSql.Sql
