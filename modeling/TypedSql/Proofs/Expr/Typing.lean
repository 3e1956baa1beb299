import TypedSql.Expr.Construct

/-!
# Typing by the form of an expression

What typing makes of an untyped expression, by the form of its node: the parts are typed, and the
node takes the mapping that is wanted or the one that follows from its parts. Comparisons, logical
operations, memberships and elements of arrays have a mapping of their own, which stands whatever
is wanted.
-/

namespace TypedSql.Expr

variable {c : Catalog} {wanted : Option Mapping}

/-- The forms of an untyped expression. -/
theorem untypedCases {motive : (e : Expr) → e.isTyped = false → Prop}
    (array : ∀ es type elementMapping, motive (.array es type elementMapping none) rfl)
    (binary : ∀ l op r, motive (.binary l op r none) rfl)
    (constant : ∀ v, motive (.constant v none) rfl)
    (inUnnest : ∀ item arr, motive (.inUnnest item arr none) rfl)
    (index : ∀ arr idx mode, motive (.index arr idx mode none) rfl)
    (unary : ∀ op x, motive (.unary op x none) rfl)
    (e : Expr) (h : e.isTyped = false) : motive e h := by
  have hnone := Option.isSome_eq_false_iff.mp h
  cases e with
  | array es type elementMapping m =>
    obtain rfl : m = none := Option.isNone_iff_eq_none.mp hnone
    exact array es type elementMapping
  | binary l op r m =>
    obtain rfl : m = none := Option.isNone_iff_eq_none.mp hnone
    exact binary l op r
  | constant v m =>
    obtain rfl : m = none := Option.isNone_iff_eq_none.mp hnone
    exact constant v
  | inUnnest item arr m =>
    obtain rfl : m = none := Option.isNone_iff_eq_none.mp hnone
    exact inUnnest item arr
  | index arr idx mode m =>
    obtain rfl : m = none := Option.isNone_iff_eq_none.mp hnone
    exact index arr idx mode
  | unary op x m =>
    obtain rfl : m = none := Option.isNone_iff_eq_none.mp hnone
    exact unary op x
  | cast | column | call | member | parameter => cases h

/-- An untyped expression is typed by its node, and its parts by the same rule. -/
theorem annotate_eq {e : Expr} (h : e.isTyped = false) (wanted : Option Mapping) :
    annotate c wanted e = annotateNode c e (unbounded c e.size) wanted := by
  rw [annotate, annotated, h]
  rfl

/-! ## Operands -/

/-- Operands of which one without a mapping takes that of the other. -/
def typedByOther (c : Catalog) (l r : Expr) : Expr × Expr :=
  match l.mapping?, r.mapping? with
  | some m, none => (l, applyMapping c r m)
  | none, some m => (applyMapping c l m, r)
  | _, _ => (l, r)

/-- Operands typed by each other; when neither has a mapping, after both are typed by their
values. -/
def operands (c : Catalog) (l r : Expr) : Expr × Expr :=
  if l.isTyped || r.isTyped then typedByOther c l r
  else typedByOther c (applyDefault c l) (applyDefault c r)

/-- The operands of a binary operation are typed by each other. -/
theorem inferOperands_unbounded {n : Nat} (l r : Expr) (hl : l.size < n) (hr : r.size < n) :
    (inferOperands (unbounded c n) l r hl hr).1 = operands c l r := by
  have happlied (x : Expr) (h : x.size < n) (w : Option Mapping) :
      (unbounded c n x h w).1 = annotate c w x := rfl
  cases hlm : l.mapping? with
  | some =>
    cases hrm : r.mapping? with
    | some => simp [inferOperands, operands, typedByOther, isTyped, *]
    | none =>
      simp [inferOperands, operands, typedByOther, isTyped, *]
      rfl
  | none =>
    cases hrm : r.mapping? with
    | some =>
      simp [inferOperands, operands, typedByOther, isTyped, *]
      rfl
    | none =>
      simp only [inferOperands, operands, typedByOther, isTyped, applyDefault, happlied, hlm, hrm]
      cases (annotate c none l).mapping? <;> cases (annotate c none r).mapping? <;> rfl

/-- A binary operation has the mapping that its operands make once they are typed. -/
theorem operation_eq (l : Expr) (op : BinaryOp) (r : Expr) : operation c l op r =
    .binary (operands c l r).1 op (operands c l r).2
      (binaryMapping op (operands c l r).1.mapping? (operands c l r).2.mapping?) := by
  rw [← inferOperands_unbounded (n := l.size + r.size + 1) l r
    (Nat.lt_succ_of_le (Nat.le_add_right ..)) (Nat.lt_succ_of_le (Nat.le_add_left ..))]
  rfl

/-! ## Nodes -/

/-- A constant takes the wanted mapping, or that of its value. -/
theorem annotate_constant (v : Value) :
    annotate c wanted (.constant v none) = .constant v (wanted.or (c.resolveValue v)) := by
  rw [annotate_eq rfl]
  rfl

/-- An operation is typed by its operands when nothing is wanted, or when it yields a truth
value. -/
theorem annotate_operation {op : BinaryOp} (l r : Expr)
    (h : wanted = none ∨ (op.isComparison || op.isLogical) = true) :
    annotate c wanted (.binary l op r none) = operation c l op r := by
  rw [annotate_eq rfl]
  cases wanted with
  | none => rfl
  | some m =>
    have hop := h.resolve_left (by simp)
    simp only [annotateNode, hop, if_true]
    rfl

/-- An operation is typed by its operands, or together with them by the mapping that is wanted. -/
theorem binaryForms (op : BinaryOp) (wanted : Option Mapping) :
    (wanted = none ∨ (op.isComparison || op.isLogical) = true) ∨
      ∃ m, wanted = some m ∧ (op.isComparison || op.isLogical) = false := by
  cases wanted with
  | none => exact .inl (.inl rfl)
  | some m =>
    cases h : op.isComparison || op.isLogical with
    | true => exact .inl (.inr rfl)
    | false => exact .inr ⟨m, rfl, rfl⟩

/-- Any other operation takes the wanted mapping together with its operands. -/
theorem annotate_arithmetic {op : BinaryOp} (l r : Expr) (m : Mapping)
    (h : (op.isComparison || op.isLogical) = false) :
    annotate c (some m) (.binary l op r none) =
      .binary (applyMapping c l m) op (applyMapping c r m) (some m) := by
  rw [annotate_eq rfl]
  simp only [annotateNode, h]
  rfl

/-- A negated truth value is one, whatever is wanted. -/
theorem annotate_not (x : Expr) : annotate c wanted (.unary .not x none) =
    .unary .not (applyMapping c x Builtin.bool.mapping) (some Builtin.bool.mapping) := by
  rw [annotate_eq rfl]
  rfl

/-- A negated number takes the wanted mapping together with the number. -/
theorem annotate_negate (x : Expr) (m : Mapping) :
    annotate c (some m) (.unary .negate x none) =
      .unary .negate (applyMapping c x m) (some m) := by
  rw [annotate_eq rfl]
  rfl

/-- When nothing is wanted a negated number has the mapping of the number. -/
theorem annotate_negate_none (x : Expr) : annotate c none (.unary .negate x none) =
    .unary .negate (applyDefault c x) (applyDefault c x).mapping? := by
  rw [annotate_eq rfl]
  rfl

/-- Elements are typed one by one. -/
theorem allBy_unbounded {n : Nat} (es : List Expr) (small : ∀ e ∈ es, e.size < n) :
    (allBy (unbounded c n) wanted es small).1 = es.map (annotate c wanted) := by
  induction es with
  | nil => rfl
  | cons first rest ih => exact congrArg (annotate c wanted first :: ·) (ih _)

/-- The mapping that elements of an array are typed by: their own, or that of the array's
elements. -/
def elementsBy (c : Catalog) (type : HostType) (elementMapping wanted : Option Mapping) :
    Option Mapping :=
  elementMapping.or ((wanted.or (c.resolveType (.listOf type))).bind Mapping.element?)

/-- An array takes the wanted mapping, or that of lists of its element type. -/
theorem annotate_array (es : List Expr) (type : HostType) (elementMapping : Option Mapping) :
    annotate c wanted (.array es type elementMapping none) =
      .array (es.map (annotate c (elementsBy c type elementMapping wanted))) type
        (elementsBy c type elementMapping wanted)
        (wanted.or (c.resolveType (.listOf type))) := by
  rw [annotate_eq rfl, ← allBy_unbounded es size_arrayElement_lt]
  rfl

/-- An element of an array has the mapping of the array's elements, and takes the wanted one when
that is missing. -/
theorem annotate_index (arr idx : Expr) (mode : IndexMode) :
    annotate c wanted (.index arr idx mode none) =
      .index (applyDefault c arr) (applyMapping c idx Builtin.int64.mapping) mode
        ((elementMapping? (applyDefault c arr)).or wanted) := by
  rw [annotate_eq rfl]
  rfl

/-- A membership is a truth value, whatever is wanted. -/
theorem annotate_inUnnest (item arr : Expr) : annotate c wanted (.inUnnest item arr none) =
    .inUnnest (annotate c (elementMapping? (applyDefault c arr)) item) (applyDefault c arr)
      (some Builtin.bool.mapping) := by
  rw [annotate_eq rfl]
  rfl

/-! ## The mapping of a typed expression -/

/-- The mapping that an untyped node has by its own parts, whatever is wanted. -/
def ownMapping? (c : Catalog) : Expr → Option Mapping
  | .binary _ op _ _ =>
    if op.isComparison || op.isLogical then some Builtin.bool.mapping else none
  | .unary .not _ _ | .inUnnest .. => some Builtin.bool.mapping
  | .index arr _ _ _ => elementMapping? (applyDefault c arr)
  | _ => none

/-- An untyped expression takes the wanted mapping, unless it has one of its own. -/
theorem mapping?_applyMapping {e : Expr} (h : e.isTyped = false) (m : Mapping) :
    (applyMapping c e m).mapping? = some ((ownMapping? c e).getD m) := by
  rw [applyMapping]
  cases e, h using untypedCases with
  | array es type elementMapping =>
    rw [annotate_array]
    rfl
  | binary l op r =>
    rw [ownMapping?]
    cases hop : op.isComparison || op.isLogical with
    | true =>
      rw [annotate_operation l r (.inr hop), operation_eq, mapping?, binaryMapping, hop]
      rfl
    | false =>
      rw [annotate_arithmetic l r m hop]
      rfl
  | constant v =>
    rw [annotate_constant]
    rfl
  | inUnnest item arr =>
    rw [annotate_inUnnest]
    rfl
  | index arr idx mode =>
    rw [annotate_index, mapping?, ownMapping?]
    cases elementMapping? (applyDefault c arr) <;> rfl
  | unary op x =>
    cases op with
    | not =>
      rw [annotate_not]
      rfl
    | negate =>
      rw [annotate_negate]
      rfl

/-- Every expression has a mapping once one has been applied to it. -/
theorem isTyped_applyMapping (e : Expr) (m : Mapping) : (applyMapping c e m).isTyped = true := by
  cases h : e.isTyped with
  | true => rw [applyMapping, annotate_of_isTyped h, h]
  | false => rw [isTyped, mapping?_applyMapping h, Option.isSome_some]

end TypedSql.Expr
