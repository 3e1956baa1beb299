import TypedSql.Proofs.Sql.Emission
import TypedSql.Proofs.Sql.Token

/-!
# The spacing of written SQL

Written SQL keeps its words and its signs apart, so that its text spells the tokens of the
expression. Operands stand behind a blank or a bracket, except those of a minus sign, and what
stands behind a minus sign without parentheses does not begin with another one.
-/

namespace TypedSql

namespace Lexeme

/-- Any piece can stand right behind this one. -/
def leadsAny (x : Lexeme) : Bool := x.last?.all fun t => t.script == .punctuation

/-- This piece can stand right behind any. -/
def followsAny (x : Lexeme) : Bool := x.first?.all fun t => t.script == .punctuation

/-- This piece begins with a sign. -/
def beginsWithSign (x : Lexeme) : Bool := x.first?.any fun t => t.script == .signs

namespace Spaced

variable {x y : Lexeme} {a b : List Lexeme}

/-- A single piece stands by itself. -/
theorem singleton (x : Lexeme) : Spaced [x] := List.isChain_singleton x

/-- Pieces go on behind one that any piece can stand behind. -/
theorem behind (hx : x.leadsAny = true) (h : Spaced b) : Spaced (x :: b) := by
  refine List.isChain_cons.mpr ⟨fun y _ t ht u _ hrun => hrun.2 ?_, h⟩
  rw [leadsAny, ht] at hx
  exact beq_iff_eq.mp hx

/-- Pieces go on with one that can stand behind any. -/
theorem append (ha : Spaced a) (hy : y.followsAny = true) (h : Spaced (y :: b)) :
    Spaced (a ++ y :: b) := by
  refine List.isChain_append.mpr ⟨ha, h, fun x _ z hz t _ u hu hrun => hrun.2 ?_⟩
  obtain rfl : y = z := Option.some.inj hz
  rw [followsAny, hu] at hy
  exact hrun.1.trans (beq_iff_eq.mp hy)

/-- Pieces that do not begin with a sign can stand behind a minus sign. -/
theorem behind_negate (h : Spaced (x :: b)) (hx : x.beginsWithSign = false) :
    Spaced (.unary .negate :: x :: b) := by
  refine List.isChain_cons_cons.mpr ⟨fun t ht u hu hrun => ?_, h⟩
  obtain rfl : .operator .subtract = t := Option.some.inj ht
  rw [beginsWithSign, hu] at hx
  exact absurd hrun.1.symm (beq_eq_false_iff_ne.mp hx)

/-- Without the first piece the others can still stand in a row. -/
theorem tail (h : Spaced (x :: b)) : Spaced b := (List.isChain_cons.mp h).2

/-- Pieces in parentheses where asked. -/
theorem grouped (paren : Bool) (h : Spaced a) : Spaced (Sql.grouped paren a) := by
  cases paren with
  | false => exact h
  | true => exact (h.append rfl (singleton .closeParen)).behind rfl

end Spaced

end Lexeme

namespace Sql

open Lexeme

variable {ctx : Context} {pieces : List Lexeme} {e : Expr}

/-- The pieces of an operand can stand in a row, and also behind a minus sign unless the operand may
need parentheses there. -/
structure SpacedOperand (e : Expr) (pieces : List Lexeme) : Prop where
  spaced : Spaced pieces
  behind_negate : e.precedence? = none → Spaced (.unary .negate :: pieces)

namespace SpacedOperand

/-- What can stand behind a minus sign can stand anywhere. -/
theorem of_negate (h : Spaced (.unary .negate :: pieces)) : SpacedOperand e pieces :=
  ⟨h.tail, fun _ => h⟩

/-- What does not begin with a sign can stand behind a minus sign. -/
theorem of_head {x : Lexeme} (hx : x.beginsWithSign = false) (h : Spaced (x :: pieces)) :
    SpacedOperand e (x :: pieces) :=
  of_negate (h.behind_negate hx)

/-- An operand that may need parentheses has to stand in a row only. -/
theorem of_precedence {p : Nat} (he : e.precedence? = some p) (h : Spaced pieces) :
    SpacedOperand e pieces :=
  ⟨h, fun hnone => absurd (he.symm.trans hnone) (by simp)⟩

/-- An operand behind a minus sign. -/
theorem negate (h : SpacedOperand e pieces) {paren : Bool}
    (hparen : paren = false → e.precedence? = none) :
    Spaced (.unary .negate :: Sql.grouped paren pieces) := by
  cases paren with
  | false => exact h.behind_negate (hparen rfl)
  | true => exact .append (.singleton _) rfl (h.spaced.grouped true)

end SpacedOperand

/-! ## Every node -/

/-- No operator that parentheses depend on binds tighter than a minus sign. -/
theorem le_precedence_negate {p : Nat} (h : e.precedence? = some p) :
    p ≤ UnaryOp.negate.precedence := by
  cases e with
  | binary _ op _ _ =>
    obtain rfl := Option.some.inj h
    cases op <;> decide
  | unary op _ _ =>
    obtain rfl := Option.some.inj h
    cases op <;> decide
  | inUnnest =>
    obtain rfl := Option.some.inj h
    decide
  | _ => simp [Expr.precedence?] at h

/-- The operand of a minus sign is in parentheses if it may need any. -/
theorem precedence?_of_unaryGrouped (h : unaryGrouped .negate e = false) : e.precedence? = none := by
  cases hp : e.precedence? with
  | none => rfl
  | some p =>
    have hloose : looserThan e (UnaryOp.negate.precedence + 1) = true := by
      rw [looserThan, hp]
      exact decide_eq_true (Nat.lt_succ_of_le (le_precedence_negate hp))
    rw [unaryGrouped, hloose, Bool.true_or] at h
    exact absurd h Bool.noConfusion

/-- An operand in front of an index or a field is in parentheses if it may need any. -/
theorem precedence?_of_baseGrouped (h : baseGrouped e = false) : e.precedence? = none := by
  simpa [baseGrouped] using h

/-- A leaf is a word. -/
theorem SpacedOperand.leaf {step : Emit} (hword : YieldsWord step) {s : Progress}
    (hs : (step.run s).2.fault = none) : SpacedOperand e (step.run s).1 := by
  obtain ⟨text, htext⟩ := hword s hs
  rw [htext]
  exact .of_head rfl (.singleton _)

/-- Expressions with commas between them can stand in a row when each of them can. -/
theorem spaced_emitAll {es : List Expr}
    (h : ∀ e ∈ es, ∀ s, ((emit ctx e).run s).2.fault = none →
      SpacedOperand e ((emit ctx e).run s).1)
    {s : Progress} (hs : ((emitAll ctx es).run s).2.fault = none) :
    Spaced ((emitAll ctx es).run s).1 := by
  induction es generalizing s with
  | nil => exact List.isChain_nil
  | cons first rest ih =>
    have hrest : ((emitAll ctx rest).run ((emit ctx first).run s).2).2.fault = none := hs
    have hfirst := keepsFault_emitAll rest _ hrest
    have hspaced := (h first List.mem_cons_self s hfirst).spaced
    have hothers := ih (fun e he => h e (List.mem_cons_of_mem _ he)) hrest
    change Spaced (((emit ctx first).run s).1 ++ (if rest.isEmpty then []
      else .comma :: ((emitAll ctx rest).run ((emit ctx first).run s).2).1))
    split
    · rwa [List.append_nil]
    · exact hspaced.append rfl (hothers.behind rfl)

/-- The pieces that an expression is written in can stand in a row. -/
theorem spacedOperand_emit (e : Expr) {s : Progress} (hs : ((emit ctx e).run s).2.fault = none) :
    SpacedOperand e ((emit ctx e).run s).1 := by
  induction e generalizing s with
  | array elements _ _ mapping ih =>
    cases mapping with
    | none => exact absurd hs (fault_fail _ s)
    | some m =>
      have hitems : Spaced ((emitAll ctx elements).run s).1 :=
        spaced_emitAll (fun e he s hs => ih e he hs) hs
      have hclosed := hitems.append rfl (.singleton .closeBracket)
      exact .of_head rfl (.append (.singleton _) rfl (hclosed.behind rfl))
  | binary l op r m ihl ihr =>
    have hr : ((emit ctx r).run ((emit ctx l).run s).2).2.fault = none := hs
    have hleft := (ihl (keepsFault_emit r _ hr)).spaced.grouped (leftGrouped op l)
    have hright := (ihr hr).spaced.grouped (rightGrouped op r)
    exact .of_precedence rfl (hleft.append rfl (hright.behind rfl))
  | cast x m ih =>
    have htype : Spaced [.castType, .word m.storeType.toList, .closeParen] :=
      (Spaced.append (.singleton _) rfl (.singleton .closeParen)).behind rfl
    exact .of_head rfl (((ih hs).spaced.append rfl htype).behind rfl)
  | column table name m => exact .of_head rfl (.singleton _)
  | constant v m => exact .leaf (constant_leaf m v).2 hs
  | call name args m ih =>
    have hargs : Spaced ((emitAll ctx args).run s).1 :=
      spaced_emitAll (fun e he s hs => ih e he hs) hs
    have hclosed := hargs.append rfl (.singleton .closeParen)
    exact .of_head rfl (.append (.singleton _) rfl (hclosed.behind rfl))
  | inUnnest item arr m ihi iha =>
    have harr : ((emit ctx arr).run ((emit ctx item).run s).2).2.fault = none := hs
    have hitem := (ihi (keepsFault_emit arr _ harr)).spaced.grouped (itemGrouped item)
    have harray := (iha harr).spaced.append rfl (.singleton .closeParen)
    exact .of_precedence rfl (hitem.append rfl (harray.behind rfl))
  | index arr idx mode m iha ihi =>
    have hidx : ((emit ctx idx).run ((emit ctx arr).run s).2).2.fault = none := hs
    have harr := (iha (keepsFault_emit idx _ hidx)).negate precedence?_of_baseGrouped
    have hposition := (ihi hidx).spaced.append rfl (.singleton .closeIndex)
    exact .of_negate (harr.append rfl (hposition.behind rfl))
  | member x name m ih =>
    have hx := (ih hs).negate precedence?_of_baseGrouped
    exact .of_negate (hx.append rfl (.singleton _))
  | parameter name v m => exact .leaf (bind_leaf (.of name v) m).2 hs
  | unary op x m ih =>
    refine .of_precedence rfl ?_
    cases op with
    | not => exact ((ih hs).spaced.grouped _).behind rfl
    | negate => exact (ih hs).negate precedence?_of_unaryGrouped

/-- Written text spells the tokens of the expression. -/
theorem spells_of_write {c : Catalog} {e : Expr} {parameters final : List Parameter}
    {text : String} (h : write c e parameters = (.ok text, final)) :
    Spells (tokens c e parameters) text.toList := by
  have hspaced : Spaced (lexemes c e parameters).1 := (spacedOperand_emit e (fault_of_write h)).spaced
  unfold write at h
  split at h
  next pieces progress hrun =>
    split at h
    · simp at h
    · obtain ⟨rfl, -⟩ := by simpa only [Prod.mk.injEq, Except.ok.injEq] using h
      rw [hrun] at hspaced
      rw [tokens, hrun, String.toList_ofList]
      exact spells_textOfAll hspaced

end Sql

end TypedSql
