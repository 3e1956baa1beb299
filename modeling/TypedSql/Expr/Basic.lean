import TypedSql.Expr.Operator
import TypedSql.Mapping.Basic

/-!
# Expressions

SQL expression trees. Every node has a place for the mapping of the value it produces; nodes whose
mapping follows from their parts may go without one until they are typed.
-/

namespace TypedSql

/-- What an index outside an array does. -/
inductive IndexMode where
  /-- It is an error. -/
  | offset
  /-- It yields null. -/
  | safeOffset
deriving DecidableEq, Repr

/-- The function that an index is written with. -/
def IndexMode.text : IndexMode → String
  | .offset => "OFFSET"
  | .safeOffset => "SAFE_OFFSET"

/-- An expression. -/
inductive Expr where
  /-- An array of element expressions of one host type. -/
  | array (elements : List Expr) (elementType : HostType) (elementMapping mapping : Option Mapping)
  | binary (left : Expr) (op : BinaryOp) (right : Expr) (mapping : Option Mapping)
  | cast (operand : Expr) (mapping : Mapping)
  /-- A column, perhaps of a named table. -/
  | column (table : Option String) (name : String) (mapping : Mapping)
  | constant (value : Value) (mapping : Option Mapping)
  | call (name : String) (args : List Expr) (mapping : Mapping)
  /-- Membership of an item in an array. -/
  | inUnnest (item array : Expr) (mapping : Option Mapping)
  /-- An element of an array, counted from zero. -/
  | index (array index : Expr) (mode : IndexMode) (mapping : Option Mapping)
  /-- A field of a struct. -/
  | member (operand : Expr) (field : String) (mapping : Mapping)
  /-- A query parameter with the value bound to it. -/
  | parameter (name : String) (value : Value) (mapping : Mapping)
  | unary (op : UnaryOp) (operand : Expr) (mapping : Option Mapping)

instance : Inhabited Expr := ⟨.constant .null none⟩

namespace Expr

/-- The mapping of the value that an expression produces. -/
def mapping? : Expr → Option Mapping
  | .array _ _ _ m | .binary _ _ _ m | .constant _ m | .inUnnest _ _ m | .index _ _ _ m
  | .unary _ _ m => m
  | .cast _ m | .column _ _ m | .call _ _ m | .member _ _ m | .parameter _ _ m => some m

/-- Whether an expression has a mapping. -/
def isTyped (e : Expr) : Bool := e.mapping?.isSome

/-- Constants. -/
def isConstant : Expr → Bool
  | .constant .. => true
  | _ => false

/-- The null constant. -/
def isNull : Expr → Bool
  | .constant .null _ => true
  | _ => false

/-- Binary operations. -/
def isBinary : Expr → Bool
  | .binary .. => true
  | _ => false

/-- Casts. -/
def isCast : Expr → Bool
  | .cast .. => true
  | _ => false

/-- Columns. -/
def isColumn : Expr → Bool
  | .column .. => true
  | _ => false

/-- Function calls. -/
def isCall : Expr → Bool
  | .call .. => true
  | _ => false

/-- Array elements. -/
def isIndex : Expr → Bool
  | .index .. => true
  | _ => false

/-- Parameters. -/
def isParameter : Expr → Bool
  | .parameter .. => true
  | _ => false

/-- Calls of the function with a name, in any case. -/
def isCallOf (name : String) : Expr → Bool
  | .call n _ _ => Text.sameName n name
  | _ => false

/-- The value of a constant. -/
def value? : Expr → Option Value
  | .constant v _ => some v
  | _ => none

/-- How tightly an expression binds as an operand, or none when nothing can take it apart. -/
def precedence? : Expr → Option Nat
  | .binary _ op _ _ => some op.precedence
  | .unary op _ _ => some op.precedence
  | .inUnnest .. => some BinaryOp.eq.precedence
  | _ => none

mutual

/-- The number of nodes. -/
def size : Expr → Nat
  | .array elements _ _ _ => sizeAll elements + 1
  | .binary l _ r _ => l.size + r.size + 1
  | .cast x _ => x.size + 1
  | .column .. => 1
  | .constant .. => 1
  | .call _ args _ => sizeAll args + 1
  | .inUnnest item arr _ => item.size + arr.size + 1
  | .index arr idx _ _ => arr.size + idx.size + 1
  | .member x _ _ => x.size + 1
  | .parameter .. => 1
  | .unary _ x _ => x.size + 1

/-- The number of nodes of several expressions. -/
def sizeAll : List Expr → Nat
  | [] => 0
  | e :: rest => e.size + sizeAll rest

end

/-- An expression is no larger than a list that it stands in. -/
theorem size_le_sizeAll {e : Expr} {es : List Expr} (h : e ∈ es) : e.size ≤ sizeAll es := by
  induction es with
  | nil => simp at h
  | cons first rest ih =>
    rw [sizeAll]
    rcases List.mem_cons.1 h with rfl | h
    · exact Nat.le_add_right _ _
    · exact Nat.le_trans (ih h) (Nat.le_add_left _ _)

/-! Parts are smaller than the whole. -/

variable {mapping : Option Mapping}

theorem size_left_lt {l r : Expr} {op : BinaryOp} : l.size < (binary l op r mapping).size :=
  Nat.lt_succ_of_le (Nat.le_add_right ..)

theorem size_right_lt {l r : Expr} {op : BinaryOp} : r.size < (binary l op r mapping).size :=
  Nat.lt_succ_of_le (Nat.le_add_left ..)

theorem size_operand_lt {x : Expr} {op : UnaryOp} : x.size < (unary op x mapping).size :=
  Nat.lt_succ_self _

theorem size_arrayElement_lt {es : List Expr} {type : HostType} {elementMapping : Option Mapping} :
    ∀ e ∈ es, e.size < (array es type elementMapping mapping).size :=
  fun _ h => Nat.lt_succ_of_le (size_le_sizeAll h)

theorem size_indexed_lt {arr idx : Expr} {mode : IndexMode} :
    arr.size < (index arr idx mode mapping).size :=
  Nat.lt_succ_of_le (Nat.le_add_right ..)

theorem size_index_lt {arr idx : Expr} {mode : IndexMode} :
    idx.size < (index arr idx mode mapping).size :=
  Nat.lt_succ_of_le (Nat.le_add_left ..)

theorem size_item_lt {item arr : Expr} : item.size < (inUnnest item arr mapping).size :=
  Nat.lt_succ_of_le (Nat.le_add_right ..)

theorem size_unnested_lt {item arr : Expr} : arr.size < (inUnnest item arr mapping).size :=
  Nat.lt_succ_of_le (Nat.le_add_left ..)

end Expr

end TypedSql
