import TypedSql.Expr.Traverse

/-!
# Nodes of an expression

Induction over expressions, with the parts of calls and array literals as members of their lists,
and the nodes of an expression as those of its parts and itself.
-/

namespace TypedSql.Expr

attribute [local simp] nodes nodesOfAll

/-- Induction over expressions, with the parts of calls and arrays as members of their lists. -/
@[induction_eliminator]
theorem induct {motive : Expr → Prop}
    (array : ∀ elements elementType elementMapping mapping, (∀ e ∈ elements, motive e) →
      motive (.array elements elementType elementMapping mapping))
    (binary : ∀ left op right mapping, motive left → motive right →
      motive (.binary left op right mapping))
    (cast : ∀ operand mapping, motive operand → motive (.cast operand mapping))
    (column : ∀ table name mapping, motive (.column table name mapping))
    (constant : ∀ value mapping, motive (.constant value mapping))
    (call : ∀ name args mapping, (∀ e ∈ args, motive e) → motive (.call name args mapping))
    (inUnnest : ∀ item array mapping, motive item → motive array →
      motive (.inUnnest item array mapping))
    (index : ∀ array index mode mapping, motive array → motive index →
      motive (.index array index mode mapping))
    (member : ∀ operand field mapping, motive operand → motive (.member operand field mapping))
    (parameter : ∀ name value mapping, motive (.parameter name value mapping))
    (unary : ∀ op operand mapping, motive operand → motive (.unary op operand mapping))
    (e : Expr) : motive e := by
  refine @Expr.rec motive (fun es => ∀ e ∈ es, motive e) array binary cast column constant call
    inUnnest index member parameter unary ?_ ?_ e
  · intro _ h
    exact absurd h List.not_mem_nil
  · rintro first rest hfirst hrest e he
    rcases List.mem_cons.mp he with rfl | he
    · exact hfirst
    · exact hrest e he

/-- The nodes of several expressions are those of each, one expression after the other. -/
theorem nodesOfAll_eq (es : List Expr) : nodesOfAll es = es.flatMap nodes := by
  induction es with
  | nil => rfl
  | cons first rest ih => rw [nodesOfAll, ih, List.flatMap_cons]

/-- The nodes of several expressions are the nodes of each. -/
theorem mem_nodesOfAll {node : Expr} {es : List Expr} :
    node ∈ nodesOfAll es ↔ ∃ e ∈ es, node ∈ e.nodes := by
  rw [nodesOfAll_eq, List.mem_flatMap]

/-- The operator of a binary operation. -/
def operator? : Expr → Option BinaryOp
  | .binary _ op _ _ => some op
  | _ => none

/-- The operators of one strength down the left side of an expression, the loosest first. -/
def leftSpine (strength : Nat) : Expr → List BinaryOp
  | .binary l op _ _ => if op.precedence = strength then op :: leftSpine strength l else []
  | _ => []

/-! ## Right operands -/

/-- Every operator of an expression and its right operand satisfy a condition. -/
def RightOperands (q : BinaryOp → Expr → Prop) (e : Expr) : Prop :=
  ∀ l op r m, .binary l op r m ∈ e.nodes → q op r

variable {q : BinaryOp → Expr → Prop}

/-- A condition on the right operands of several expressions. -/
theorem forall_mem_nodesOfAll {es : List Expr} :
    (∀ l op r m, .binary l op r m ∈ nodesOfAll es → q op r) ↔ ∀ e ∈ es, RightOperands q e := by
  constructor
  · intro h e he l op r m hnode
    exact h l op r m (mem_nodesOfAll.mpr ⟨e, he, hnode⟩)
  · intro h l op r m hnode
    obtain ⟨e, he, hmem⟩ := mem_nodesOfAll.mp hnode
    exact h e he l op r m hmem

@[simp]
theorem rightOperands_array {es : List Expr} {t : HostType} {i m : Option Mapping} :
    RightOperands q (.array es t i m) ↔ ∀ e ∈ es, RightOperands q e := by
  simpa [RightOperands] using forall_mem_nodesOfAll (q := q)

@[simp]
theorem rightOperands_binary {l r : Expr} {op : BinaryOp} {m : Option Mapping} :
    RightOperands q (.binary l op r m) ↔ RightOperands q l ∧ RightOperands q r ∧ q op r := by
  constructor
  · intro h
    refine ⟨?_, ?_, h l op r m (by simp)⟩
    · intro l' op' r' m' hnode
      exact h l' op' r' m' (by simp [hnode])
    · intro l' op' r' m' hnode
      exact h l' op' r' m' (by simp [hnode])
  · rintro ⟨hl, hr, hq⟩ l' op' r' m' hnode
    simp only [nodes, List.mem_append, List.mem_singleton, binary.injEq] at hnode
    rcases hnode with (hnode | hnode) | ⟨-, rfl, rfl, -⟩
    · exact hl l' op' r' m' hnode
    · exact hr l' op' r' m' hnode
    · exact hq

@[simp]
theorem rightOperands_cast {x : Expr} {m : Mapping} :
    RightOperands q (.cast x m) ↔ RightOperands q x := by
  simp [RightOperands]

@[simp]
theorem rightOperands_column {table : Option String} {name : String} {m : Mapping} :
    RightOperands q (.column table name m) := by
  simp [RightOperands]

@[simp]
theorem rightOperands_constant {v : Value} {m : Option Mapping} :
    RightOperands q (.constant v m) := by
  simp [RightOperands]

@[simp]
theorem rightOperands_call {name : String} {args : List Expr} {m : Mapping} :
    RightOperands q (.call name args m) ↔ ∀ e ∈ args, RightOperands q e := by
  simpa [RightOperands] using forall_mem_nodesOfAll (q := q)

@[simp]
theorem rightOperands_inUnnest {x y : Expr} {m : Option Mapping} :
    RightOperands q (.inUnnest x y m) ↔ RightOperands q x ∧ RightOperands q y := by
  simp [RightOperands, or_imp, forall_and]

@[simp]
theorem rightOperands_index {x y : Expr} {mode : IndexMode} {m : Option Mapping} :
    RightOperands q (.index x y mode m) ↔ RightOperands q x ∧ RightOperands q y := by
  simp [RightOperands, or_imp, forall_and]

@[simp]
theorem rightOperands_member {x : Expr} {name : String} {m : Mapping} :
    RightOperands q (.member x name m) ↔ RightOperands q x := by
  simp [RightOperands]

@[simp]
theorem rightOperands_parameter {name : String} {v : Value} {m : Mapping} :
    RightOperands q (.parameter name v m) := by
  simp [RightOperands]

@[simp]
theorem rightOperands_unary {op : UnaryOp} {x : Expr} {m : Option Mapping} :
    RightOperands q (.unary op x m) ↔ RightOperands q x := by
  simp [RightOperands]

end TypedSql.Expr
