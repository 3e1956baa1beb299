import TypedSql.Proofs.Expr.Retyping

/-!
# Arithmetic over typed operands

An arithmetic operation without a mapping takes the one of its context when it has a context, and
only else the one that its operands make. The context reaches all operations below, whatever the
operands at the leaves have, so in a context an operation may carry a mapping that its operands do
not make.
-/

namespace TypedSql.Expr

variable {c : Catalog}

/-! ## One operation -/

/-- Operands that are typed stay as they are. -/
theorem operands_of_isTyped {l r : Expr} (hl : l.isTyped = true) (hr : r.isTyped = true) :
    operands c l r = (l, r) := by
  obtain ⟨_, hlm⟩ := Option.isSome_iff_exists.mp hl
  obtain ⟨_, hrm⟩ := Option.isSome_iff_exists.mp hr
  simp [operands, typedByOther, isTyped, hlm, hrm]

/-- Operands that can be typed by their values are typed, each in the context of the other's
mapping. -/
theorem operands_eq {l r : Expr} (hl : (applyDefault c l).isTyped = true)
    (hr : (applyDefault c r).isTyped = true) :
    operands c l r = (annotate c r.mapping? l, annotate c l.mapping? r) := by
  cases hlm : l.mapping? with
  | some m =>
    have hleft (context : Option Mapping) : annotate c context l = l :=
      annotate_of_isTyped (Option.isSome_of_eq_some hlm) context
    cases hrm : r.mapping? with
    | some n =>
      have hright : annotate c (some m) r = r :=
        annotate_of_isTyped (Option.isSome_of_eq_some hrm) _
      rw [operands_of_isTyped (Option.isSome_of_eq_some hlm) (Option.isSome_of_eq_some hrm),
        hleft, hright]
    | none => simp [operands, typedByOther, isTyped, applyMapping, hlm, hrm, hleft]
  | none =>
    cases hrm : r.mapping? with
    | some n =>
      have hright : annotate c none r = r :=
        annotate_of_isTyped (Option.isSome_of_eq_some hrm) _
      simp [operands, typedByOther, isTyped, applyMapping, hlm, hrm, hright]
    | none =>
      -- both are typed by their values, so neither is typed by the other afterwards
      obtain ⟨_, hl⟩ := Option.isSome_iff_exists.mp hl
      obtain ⟨_, hr⟩ := Option.isSome_iff_exists.mp hr
      simp only [operands, typedByOther, isTyped, hlm, hrm, hl, hr]
      rfl

/-- An operation on typed operands has the mapping that they make. -/
theorem mapping?_operation {l r : Expr} (hl : l.isTyped = true) (hr : r.isTyped = true)
    (op : BinaryOp) : (operation c l op r).mapping? = binaryMapping op l.mapping? r.mapping? := by
  rw [operation_eq, operands_of_isTyped hl hr]
  rfl

/-- Arithmetic yields no truth values. -/
theorem not_truth_of_isArithmetic {op : BinaryOp} (h : op.isArithmetic = true) :
    (op.isComparison || op.isLogical) = false := by
  cases op <;> first | rfl | cases h

/-- An arithmetic operation passes its context on to its operands, which else are a context for
each other, and takes the mapping of its context, or else the one that its operands make. -/
theorem annotate_isArithmetic {l r : Expr} {op : BinaryOp} (h : op.isArithmetic = true)
    (hl : (applyDefault c l).isTyped = true) (hr : (applyDefault c r).isTyped = true)
    (context : Option Mapping) :
    annotate c context (.binary l op r none) =
      .binary (annotate c (context.or r.mapping?) l) op (annotate c (context.or l.mapping?) r)
        (context.or (binaryMapping op (annotate c (context.or r.mapping?) l).mapping?
          (annotate c (context.or l.mapping?) r).mapping?)) := by
  cases context with
  | some m =>
    rw [annotate_arithmetic l r m (not_truth_of_isArithmetic h)]
    rfl
  | none =>
    rw [annotate_operation l r (.inl rfl), operation_eq, operands_eq hl hr]
    rfl

/-! ## Trees of operations -/

/-- Arithmetic operations over expressions that have a mapping. -/
inductive ArithmeticTree where
  | leaf (e : Expr) (typed : e.isTyped = true)
  | node (left : ArithmeticTree) (op : BinaryOp) (arithmetic : op.isArithmetic = true)
      (right : ArithmeticTree)

namespace ArithmeticTree

/-- The expression of a tree. Its operations have no mapping. -/
def expr : ArithmeticTree → Expr
  | leaf e _ => e
  | node l op _ r => .binary l.expr op r.expr none

/-- An expression has the leaves and the operations of a tree, and each operation is as asked: of
its context, of the mapping that an operation on its operands has, and of the one that it carries.
Without a context, an operand that has a mapping is the context of the other. -/
def Each (c : Catalog) (q : (context computed own : Option Mapping) → Prop) :
    Option Mapping → ArithmeticTree → Expr → Prop
  | _, leaf e _, e' => e' = e
  | context, node l op _ r, .binary l' op' r' own =>
    op' = op ∧ q context (operation c l' op r').mapping? own ∧
      l.Each c q (context.or r.expr.mapping?) l' ∧ r.Each c q (context.or l.expr.mapping?) r'
  | _, node .., _ => False

/-- An operation carries the mapping that its operands make. -/
def FromOperands (_context computed own : Option Mapping) : Prop := own = computed

/-- An operation carries the mapping of its context, or else the one that its operands make. -/
def FromContext (context computed own : Option Mapping) : Prop := own = context.or computed

/-- Wherever there is a context, its mapping is the one that the operands make, of which those that
are operations have the mapping of the context as well. -/
def Fits : Option Mapping → ArithmeticTree → Prop
  | _, leaf .. => True
  | context, node l op _ r =>
    (∀ m, context = some m →
      binaryMapping op (l.expr.mapping?.or (some m)) (r.expr.mapping?.or (some m)) = some m) ∧
    l.Fits (context.or r.expr.mapping?) ∧ r.Fits (context.or l.expr.mapping?)

variable {t : ArithmeticTree} {context : Option Mapping}

/-- A tree has a mapping once it is typed. -/
theorem isTyped_annotate : (annotate c context t.expr).isTyped = true := by
  induction t generalizing context with
  | leaf e typed => rwa [expr, annotate_of_isTyped typed]
  | node l op arithmetic r ihl ihr =>
    rw [expr, annotate_isArithmetic arithmetic ihl ihr, isTyped, mapping?,
      Option.isSome_iff_ne_none, Ne, Option.or_eq_none_iff]
    rintro ⟨-, hnone⟩
    exact Option.isSome_iff_ne_none.mp ihl (binaryMapping_eq_none hnone).1

/-- In a context the leaves keep their mapping and the operations have that of the context. -/
theorem mapping?_annotate_some (m : Mapping) :
    (annotate c (some m) t.expr).mapping? = t.expr.mapping?.or (some m) := by
  cases t with
  | leaf e typed =>
    obtain ⟨own, hown⟩ := Option.isSome_iff_exists.mp typed
    rw [expr, annotate_of_isTyped typed, hown]
    rfl
  | node l op arithmetic r =>
    rw [expr, annotate_isArithmetic arithmetic isTyped_annotate isTyped_annotate]
    rfl

/-- A typed operation is as asked when the mapping that it takes is and both its sides are: it takes
the one of its context, or else the one that the sides make. -/
theorem each_annotate_node {q : Option Mapping → Option Mapping → Option Mapping → Prop}
    {l r : ArithmeticTree} {op : BinaryOp} (arithmetic : op.isArithmetic = true) :
    (node l op arithmetic r).Each c q context
        (annotate c context (node l op arithmetic r).expr) ↔
      (∀ computed, binaryMapping op (annotate c (context.or r.expr.mapping?) l.expr).mapping?
          (annotate c (context.or l.expr.mapping?) r.expr).mapping? = computed →
        q context computed (context.or computed)) ∧
      l.Each c q (context.or r.expr.mapping?) (annotate c (context.or r.expr.mapping?) l.expr) ∧
      r.Each c q (context.or l.expr.mapping?) (annotate c (context.or l.expr.mapping?) r.expr) := by
  rw [expr, annotate_isArithmetic arithmetic isTyped_annotate isTyped_annotate, Each,
    mapping?_operation isTyped_annotate isTyped_annotate]
  simp

/-- Operations of a typed tree are as asked when this is so for every mapping that they can take:
that of the context they stand in, or else the one that their operands make. -/
theorem each_annotate {q : Option Mapping → Option Mapping → Option Mapping → Prop}
    (h : ∀ other computed, q (context.or other) computed ((context.or other).or computed)) :
    t.Each c q context (annotate c context t.expr) := by
  induction t generalizing context with
  | leaf e typed => exact annotate_of_isTyped typed context
  | node l op arithmetic r ihl ihr =>
    -- the contexts below are those of this context and another
    have hbelow (other further computed : Option Mapping) :
        q ((context.or other).or further) computed
          (((context.or other).or further).or computed) := by
      rw [Option.or_assoc]
      exact h _ computed
    refine (each_annotate_node arithmetic).mpr
      ⟨fun computed _ => ?_, ihl (hbelow _), ihr (hbelow _)⟩
    simpa only [Option.or_none] using h none computed

/-- The operations of a typed tree have the mappings that their operands make exactly when the
contexts fit. -/
theorem each_fromOperands_iff :
    t.Each c FromOperands context (annotate c context t.expr) ↔ t.Fits context := by
  induction t generalizing context with
  | leaf e typed => exact iff_of_true (annotate_of_isTyped typed context) trivial
  | node l op arithmetic r ihl ihr =>
    rw [each_annotate_node, Fits, ihl, ihr]
    refine and_congr_left' ?_
    cases context with
    | none => simp [FromOperands]
    | some m =>
      simp only [FromOperands, Option.some_or, mapping?_annotate_some, forall_eq', Option.some.injEq]
      exact eq_comm

/-- When a mapping is applied to a tree, each operation takes this mapping. When a tree is typed by
its values, each operation takes the mapping that its operands make, unless it stands beside an
operand that had a mapping, which it takes with all operations below. Either way each operation has
the mapping that its operands make exactly when the contexts fit. -/
theorem each_typed_iff_fits (c : Catalog) (t : ArithmeticTree) :
    (∀ m, t.Each c (fun _ _ own => own = some m) (some m) (applyMapping c t.expr m) ∧
      (t.Each c FromOperands (some m) (applyMapping c t.expr m) ↔ t.Fits (some m))) ∧
    t.Each c FromContext none (applyDefault c t.expr) ∧
    (t.Each c FromOperands none (applyDefault c t.expr) ↔ t.Fits none) :=
  ⟨fun _ => ⟨each_annotate fun _ _ => rfl, each_fromOperands_iff⟩, each_annotate fun _ _ => rfl,
    each_fromOperands_iff⟩

/-- A sum of integers takes the mapping for text that is applied to it, and the one for
floating-point numbers of a factor beside it. -/
theorem exists_not_each_fromOperands :
    (∃ (t : ArithmeticTree) (m : Mapping),
      ¬ t.Each default FromOperands (some m) (applyMapping default t.expr m)) ∧
    ∃ t : ArithmeticTree, ¬ t.Each default FromOperands none (applyDefault default t.expr) := by
  let sum : ArithmeticTree :=
    .node (.leaf (.column none "a" Builtin.int64.mapping) rfl) .add rfl
      (.leaf (.column none "b" Builtin.int64.mapping) rfl)
  have hsum {m : Mapping} (h : sum.Fits (some m)) : Builtin.int64.mapping = m :=
    Option.some.inj (h.1 m rfl)
  refine ⟨⟨sum, Builtin.string.mapping, ?_⟩,
    .node sum .multiply rfl (.leaf (.column none "f" Builtin.float64.mapping) rfl), ?_⟩
  · rw [applyMapping, each_fromOperands_iff]
    exact fun hfits => absurd (congrArg Mapping.storeType (hsum hfits)) (by decide)
  · rw [applyDefault, each_fromOperands_iff]
    exact fun hfits => absurd (congrArg Mapping.storeType (hsum hfits.2.1)) (by decide)

end ArithmeticTree

end TypedSql.Expr
