import TypedSql.Proofs.Sql.FreeInterpretation
import TypedSql.Proofs.Sql.Reading

/-!
# Meaning of written SQL

Whether the text of an expression means what the expression means, for every interpretation in
which the associative operators are associative. A right operand that repeats an operator is written
without parentheses whatever stands down its left side, so the text regroups any other operator of
the same level there: exactly the expressions without such an operand keep their meaning.
-/

namespace TypedSql.Sql

open Grammar Phrase

variable {ctx : Context}

/-- Every right operand that repeats an associative operator has no other operator of its level
down its left side. -/
def RepeatsThroughout : Expr → Prop :=
  Expr.RightOperands fun op r => repeats op r = true → ∀ o ∈ r.leftSpine op.precedence, o = op

/-- The outline of an expression has the operators of the expression down its left side. -/
theorem spine_outline (p : Nat) (e : Expr) (s : Progress) :
    ((outline ctx e).run s).1.spine p = e.leftSpine p := by
  induction e generalizing s with
  | array elements _ _ mapping =>
    cases mapping with
    | none => rfl
    | some m => rfl
  | binary l op r m ihl _ =>
    change (if level op = p then op :: spine p ((outline ctx l).run s).1 else []) = _
    rw [ihl, Expr.leftSpine, precedence_eq_level]
  | _ => rfl

/-- Outlines of several written expressions are uniform when each of them is. -/
theorem uniformAll_outlineAll {q : Expr → Prop} {es : List Expr}
    (h : ∀ e ∈ es, ∀ s, ((emit ctx e).run s).2.fault = none →
      (Uniform ((outline ctx e).run s).1 ↔ q e))
    {s : Progress} (hs : ((emitAll ctx es).run s).2.fault = none) :
    UniformAll ((outlineAll ctx es).run s).1 ↔ ∀ e ∈ es, q e := by
  induction es generalizing s with
  | nil => exact iff_of_true trivial fun _ he => absurd he List.not_mem_nil
  | cons first rest ih =>
    have hrun : ((emitAll ctx rest).run ((emit ctx first).run s).2).2.fault = none := hs
    have hfirst := h first List.mem_cons_self s (keepsFault_emitAll rest _ hrun)
    have hrest := ih (fun e he => h e (List.mem_cons_of_mem _ he)) hrun
    rw [List.forall_mem_cons, ← hfirst, ← hrest, ← state_outline]
    exact Iff.rfl

/-- The outline of a written expression is uniform when the expression repeats its operators
throughout. -/
theorem uniform_outline {e : Expr} {s : Progress} (hs : ((emit ctx e).run s).2.fault = none) :
    Uniform ((outline ctx e).run s).1 ↔ RepeatsThroughout e := by
  induction e generalizing s with
  | array elements _ _ mapping ih =>
    cases mapping with
    | none => exact absurd hs (fault_fail _ s)
    | some m =>
      have hitems : ((emitAll ctx elements).run s).2.fault = none := hs
      rw [RepeatsThroughout, Expr.rightOperands_array]
      exact uniformAll_outlineAll (fun e he s hs => ih e he hs) hitems
  | binary l op r m ihl ihr =>
    have hr : ((emit ctx r).run ((emit ctx l).run s).2).2.fault = none := hs
    have hright : (Phrase.repeats op ((outline ctx r).run ((emit ctx l).run s).2).1 = true →
        Chain op ((outline ctx r).run ((emit ctx l).run s).2).1) ↔
          (repeats op r = true → ∀ o ∈ r.leftSpine op.precedence, o = op) := by
      rw [repeats_eq op (operator?_outline r _), Chain, spine_outline, precedence_eq_level]
    rw [RepeatsThroughout, Expr.rightOperands_binary]
    change Uniform ((outline ctx l).run s).1 ∧
      Uniform ((outline ctx r).run ((outline ctx l).run s).2).1 ∧
      (Phrase.repeats op ((outline ctx r).run ((outline ctx l).run s).2).1 = true →
        Chain op ((outline ctx r).run ((outline ctx l).run s).2).1) ↔ _
    rw [state_outline]
    exact and_congr (ihl (keepsFault_emit r _ hr)) (and_congr (ihr hr) hright)
  | cast x m ih => exact (ih hs).trans Expr.rightOperands_cast.symm
  | column => exact iff_of_true trivial Expr.rightOperands_column
  | constant v m => exact iff_of_true trivial Expr.rightOperands_constant
  | call name args m ih =>
    have hitems : ((emitAll ctx args).run s).2.fault = none := hs
    rw [RepeatsThroughout, Expr.rightOperands_call]
    exact uniformAll_outlineAll (fun e he s hs => ih e he hs) hitems
  | inUnnest item arr m ihi iha =>
    have harr : ((emit ctx arr).run ((emit ctx item).run s).2).2.fault = none := hs
    have hitem := ihi (keepsFault_emit arr _ harr)
    rw [RepeatsThroughout, Expr.rightOperands_inUnnest, ← RepeatsThroughout, ← hitem, ← iha harr,
      ← state_outline]
    exact Iff.rfl
  | index arr idx mode m iha ihi =>
    have hidx : ((emit ctx idx).run ((emit ctx arr).run s).2).2.fault = none := hs
    have harr := iha (keepsFault_emit idx _ hidx)
    rw [RepeatsThroughout, Expr.rightOperands_index, ← RepeatsThroughout, ← harr, ← ihi hidx,
      ← state_outline]
    exact Iff.rfl
  | member x name m ih => exact (ih hs).trans Expr.rightOperands_member.symm
  | parameter name v m => exact iff_of_true trivial Expr.rightOperands_parameter
  | unary op x m ih => exact (ih hs).trans Expr.rightOperands_unary.symm

/-- Written SQL has one reading, and that reading has the value of the expression under every
interpretation in which grouping does not matter for the associative operators exactly when the
expression repeats its operators throughout. -/
theorem eval_reading_iff {c : Catalog} {e : Expr} {parameters final : List Parameter}
    {text : String} (hwrite : write c e parameters = (.ok text, final)) :
    Spells (tokens c e parameters) text.toList ∧
      ∃ t, (∀ u, Derives 1 (tokens c e parameters) u ↔ u = t) ∧
        ((∀ (V : Type) (I : Interpretation V), I.Associative →
            eval I t = eval I (outlineOf c e parameters)) ↔ RepeatsThroughout e) := by
  refine ⟨spells_of_write hwrite, (outlineOf c e parameters).regroup,
    derives_iff_regroup hwrite, ?_⟩
  rw [forall_eval_regroup_iff]
  exact uniform_outline (fault_of_write hwrite)

/-! ## A product with a quotient down its left side -/

/-- The product of a number with the product of a quotient and a number. -/
def productOfQuotient : Expr :=
  let number := Mapping.scalar "INT64" (.scalar .i64) .int64
  let quotient := Expr.binary (.column none "b" number) .divide (.column none "c" number) number
  .binary (.column none "a" number) .multiply
    (.binary quotient .multiply (.column none "d" number) number) number

/-- Products and quotients of natural numbers, with two for the first and the third column. -/
def naturalArithmetic : Interpretation Nat where
  word s := if s = "`a`".toList ∨ s = "`c`".toList then 2 else 1
  array _ _ := 0
  binary op x y := match op with
    | .multiply => x * y
    | .divide => x / y
    | _ => x
  cast x _ := x
  call _ _ := 0
  inUnnest x _ := x
  index x _ _ := x
  member x _ := x
  unary _ x := x

/-- The parentheses around the quotient are lost, and nothing else tells it from the product. -/
theorem eval_reading_iff_productOfQuotient :
    write default productOfQuotient [] = (.ok "`a` * `b` / `c` * `d`", []) ∧
      Spells (tokens default productOfQuotient []) "`a` * `b` / `c` * `d`".toList ∧
      ∃ t, (∀ u, Derives 1 (tokens default productOfQuotient []) u ↔ u = t) ∧
        ((∀ (V : Type) (I : Interpretation V), I.Associative →
            eval I t = eval I (outlineOf default productOfQuotient [])) ↔
          RepeatsThroughout productOfQuotient) := by
  have hwrite : write default productOfQuotient [] = (.ok "`a` * `b` / `c` * `d`", []) := rfl
  exact ⟨hwrite, eval_reading_iff hwrite⟩

/-- The reading of written SQL need not have the value of the expression. -/
theorem not_forall_eval_reading :
    ¬∀ (c : Catalog) (e : Expr) (parameters final : List Parameter) (text : String),
      write c e parameters = (.ok text, final) →
        ∀ t, Derives 1 (tokens c e parameters) t →
          ∀ (V : Type) (I : Interpretation V), I.Associative →
            eval I t = eval I (outlineOf c e parameters) := by
  intro h
  have hwrite : write default productOfQuotient [] = (.ok "`a` * `b` / `c` * `d`", []) := rfl
  have hread := (derives_iff_regroup hwrite _).mpr rfl
  have hassoc : naturalArithmetic.Associative := by
    simp [Interpretation.Associative, naturalArithmetic, Nat.mul_assoc]
  have hvalue := h _ _ _ _ _ hwrite _ hread Nat naturalArithmetic hassoc
  have hreading : eval naturalArithmetic (outlineOf default productOfQuotient []).regroup = 1 := rfl
  have hmeaning : eval naturalArithmetic (outlineOf default productOfQuotient []) = 0 := rfl
  rw [hreading, hmeaning] at hvalue
  exact Nat.one_ne_zero hvalue

end TypedSql.Sql
