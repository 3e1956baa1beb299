import TypedSql.Proofs.Expr.Subterm
import TypedSql.Proofs.Sql.Phrase

/-!
# Steps of writing

What every step of writing keeps: a fault that was there stays, a leaf without a fault is one word,
and the outline of an expression goes through the same states as its text.
-/

namespace TypedSql.Sql

variable {ctx : Context}

/-- A step of writing that never forgets a fault. -/
def KeepsFault (step : Emit) : Prop := ∀ s, (step.run s).2.fault = none → s.fault = none

/-- A step of writing that yields a single word when it succeeds. -/
def YieldsWord (step : Emit) : Prop :=
  ∀ s, (step.run s).2.fault = none → ∃ text, (step.run s).1 = [.word text]

/-! ## Leaves -/

/-- Recording a fault leaves a fault. -/
theorem fault_fail (fault : Fault) (s : Progress) : ((fail fault).run s).2.fault ≠ none := by
  change s.fault.or (some fault) ≠ none
  cases s.fault <;> simp

/-- Recording a fault keeps an earlier one, and yields a word only by not happening. -/
theorem fail_leaf (fault : Fault) : KeepsFault (fail fault) ∧ YieldsWord (fail fault) :=
  ⟨fun s h => absurd h (fault_fail fault s), fun s h => absurd h (fault_fail fault s)⟩

/-- Binding a parameter yields its placeholder. -/
theorem bind_leaf (p : Parameter) (m : Mapping) :
    KeepsFault (bind ctx p m) ∧ YieldsWord (bind ctx p m) := by
  unfold bind
  split
  · exact fail_leaf _
  · exact ⟨fun _ h => h, fun _ _ => ⟨_, rfl⟩⟩

/-- A constant of a mapping yields its literal or its placeholder. -/
theorem typedConstant_leaf (m : Mapping) (v : Value) :
    KeepsFault (typedConstant ctx m v) ∧ YieldsWord (typedConstant ctx m v) := by
  unfold typedConstant
  split
  · split
    · exact fail_leaf _
    · exact ⟨fun _ h => h, fun _ _ => ⟨_, rfl⟩⟩
  · exact ⟨fun s => (bind_leaf _ m).1 s, fun s => (bind_leaf _ m).2 s⟩

/-- A constant yields a single word. -/
theorem constant_leaf (m : Option Mapping) (v : Value) :
    KeepsFault (constant ctx m v) ∧ YieldsWord (constant ctx m v) := by
  unfold constant
  split
  · exact typedConstant_leaf _ v
  · split
    · exact ⟨fun _ h => h, fun _ _ => ⟨_, rfl⟩⟩
    · split
      · exact typedConstant_leaf _ v
      · exact fail_leaf _

/-! ## Expressions -/

/-- Text is written where no fault is left. -/
theorem fault_of_write {c : Catalog} {e : Expr} {parameters final : List Parameter}
    {text : String} (h : write c e parameters = (.ok text, final)) :
    (lexemes c e parameters).2.fault = none := by
  unfold write at h
  split at h
  next pieces progress hrun =>
    split at h
    · simp at h
    next hfault => rw [hrun, hfault]

/-- Writing several expressions keeps a fault when writing each of them does. -/
theorem keepsFault_emitAll_of_forall {es : List Expr} (h : ∀ e ∈ es, KeepsFault (emit ctx e)) :
    KeepsFault (emitAll ctx es) := by
  intro s hs
  induction es generalizing s with
  | nil => exact hs
  | cons first rest ih =>
    have hrest := ih (fun e he => h e (List.mem_cons_of_mem _ he)) ((emit ctx first).run s).2 hs
    exact h first List.mem_cons_self s hrest

/-- Writing an expression keeps a fault that was there before. -/
theorem keepsFault_emit (e : Expr) : KeepsFault (emit ctx e) := by
  intro s hs
  induction e generalizing s with
  | array elements _ _ mapping ih =>
    cases mapping with
    | none => exact (fail_leaf _).1 s hs
    | some m => exact keepsFault_emitAll_of_forall ih s hs
  | binary l op r _ ihl ihr => exact ihl s (ihr ((emit ctx l).run s).2 hs)
  | cast x _ ih => exact ih s hs
  | column => exact hs
  | constant v m => exact (constant_leaf m v).1 s hs
  | call _ args _ ih => exact keepsFault_emitAll_of_forall ih s hs
  | inUnnest item arr _ ihi iha => exact ihi s (iha ((emit ctx item).run s).2 hs)
  | index arr idx _ _ iha ihi => exact iha s (ihi ((emit ctx arr).run s).2 hs)
  | member x _ _ ih => exact ih s hs
  | parameter name v m => exact (bind_leaf (.of name v) m).1 s hs
  | unary op x _ ih => exact ih s hs

/-- Writing several expressions keeps a fault that was there before. -/
theorem keepsFault_emitAll (es : List Expr) : KeepsFault (emitAll ctx es) :=
  keepsFault_emitAll_of_forall fun e _ => keepsFault_emit e

/-- Reading a leaf as a word leaves the state that the leaf leaves. -/
theorem state_wordOf (step : Emit) (s : Progress) :
    ((wordOf step).run s).2 = (step.run s).2 := rfl

/-- Outlines of several expressions leave the state of their text when each of them does. -/
theorem state_outlineAll {es : List Expr}
    (h : ∀ e ∈ es, ∀ s, ((outline ctx e).run s).2 = ((emit ctx e).run s).2) (s : Progress) :
    ((outlineAll ctx es).run s).2 = ((emitAll ctx es).run s).2 := by
  induction es generalizing s with
  | nil => rfl
  | cons first rest ih =>
    change ((outlineAll ctx rest).run ((outline ctx first).run s).2).2 =
      ((emitAll ctx rest).run ((emit ctx first).run s).2).2
    rw [h first List.mem_cons_self, ih fun e he => h e (List.mem_cons_of_mem _ he)]

/-- The outline of an expression leaves the state that its text leaves. -/
theorem state_outline (e : Expr) (s : Progress) :
    ((outline ctx e).run s).2 = ((emit ctx e).run s).2 := by
  induction e generalizing s with
  | array elements _ _ mapping ih =>
    cases mapping with
    | none => rfl
    | some m => exact state_outlineAll ih s
  | binary l op r _ ihl ihr =>
    change ((outline ctx r).run ((outline ctx l).run s).2).2 =
      ((emit ctx r).run ((emit ctx l).run s).2).2
    rw [ihl, ihr]
  | cast x _ ih => exact ih s
  | call _ args _ ih => exact state_outlineAll ih s
  | inUnnest item arr _ ihi iha =>
    change ((outline ctx arr).run ((outline ctx item).run s).2).2 =
      ((emit ctx arr).run ((emit ctx item).run s).2).2
    rw [ihi, iha]
  | index arr idx _ _ iha ihi =>
    change ((outline ctx idx).run ((outline ctx arr).run s).2).2 =
      ((emit ctx idx).run ((emit ctx arr).run s).2).2
    rw [iha, ihi]
  | member x _ _ ih => exact ih s
  | unary op x _ ih => exact ih s
  | column => rfl
  | constant v m => exact state_wordOf (constant ctx m v) s
  | parameter name v m => exact state_wordOf (bind ctx (.of name v) m) s

/-- A leaf that succeeds is read as the word it yields. -/
theorem wordOf_eq_word {step : Emit} (h : YieldsWord step) {s : Progress}
    (hs : (step.run s).2.fault = none) :
    ∃ text, (step.run s).1 = [.word text] ∧ ((wordOf step).run s).1 = .word text := by
  obtain ⟨text, htext⟩ := h s hs
  have hword : Lexeme.textOfAll (step.run s).1 = text := by
    rw [htext]
    exact List.append_nil text
  exact ⟨text, htext, congrArg Phrase.word hword⟩

/-- A leaf has no operator. -/
theorem operator?_wordOf (step : Emit) (s : Progress) :
    ((wordOf step).run s).1.operator? = none := rfl

/-- The outline of an expression has the operator of the expression on top. -/
theorem operator?_outline (e : Expr) (s : Progress) :
    ((outline ctx e).run s).1.operator? = e.operator? := by
  cases e with
  | array elements _ _ mapping =>
    cases mapping with
    | none => exact operator?_wordOf _ s
    | some m => rfl
  | constant v m => exact operator?_wordOf (constant ctx m v) s
  | parameter name v m => exact operator?_wordOf (bind ctx (.of name v) m) s
  | _ => rfl

end TypedSql.Sql
