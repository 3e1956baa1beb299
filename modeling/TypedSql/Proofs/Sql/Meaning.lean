import TypedSql.Proofs.Sql.Regroup

/-!
# Meaning of phrases

Phrases evaluated under an interpretation of their operators, functions and words. Regrouping a
phrase keeps its value under every interpretation in which the associative operators are
associative, as long as the operators that it moves pass only themselves on their way.
-/

namespace TypedSql.Sql

open Grammar

/-- A meaning for everything that phrases are made of. -/
structure Interpretation (V : Type) where
  word : List Char → V
  array : List Char → List V → V
  binary : BinaryOp → V → V → V
  cast : V → List Char → V
  call : List Char → List V → V
  inUnnest : V → V → V
  index : V → V → IndexMode → V
  member : V → List Char → V
  unary : UnaryOp → V → V

/-- Grouping does not matter for `AND`, `OR`, `+`, `*` and `||`. -/
def Interpretation.Associative {V : Type} (I : Interpretation V) : Prop :=
  ∀ op ∈ [BinaryOp.and, .or, .add, .multiply, .concat], ∀ a b c,
    I.binary op (I.binary op a b) c = I.binary op a (I.binary op b c)

/-- The operators for which grouping does not matter. -/
theorem isAssociative_iff (op : BinaryOp) :
    op.isAssociative = true ↔ op ∈ [BinaryOp.and, .or, .add, .multiply, .concat] := by
  cases op <;> decide

namespace Phrase

mutual

/-- The value of a phrase. -/
@[simp]
def eval {V : Type} (I : Interpretation V) : Phrase → V
  | .word s => I.word s
  | .array type items => I.array type (evalAll I items)
  | .binary x op y => I.binary op (eval I x) (eval I y)
  | .cast x type => I.cast (eval I x) type
  | .call name args => I.call name (evalAll I args)
  | .inUnnest x y => I.inUnnest (eval I x) (eval I y)
  | .index x y mode => I.index (eval I x) (eval I y) mode
  | .member x field => I.member (eval I x) field
  | .unary op x => I.unary op (eval I x)

/-- The values of several phrases. -/
@[simp]
def evalAll {V : Type} (I : Interpretation V) : List Phrase → List V
  | [] => []
  | x :: rest => eval I x :: evalAll I rest

end

/-- The operators of one level down the left side of a phrase, the last one first. -/
@[simp]
def spine (p : Nat) : Phrase → List BinaryOp
  | .binary x op _ => if level op = p then op :: spine p x else []
  | _ => []

/-- Whether only one operator occurs down the left side of a phrase at its level. -/
def Chain (op : BinaryOp) (y : Phrase) : Prop := ∀ o ∈ spine (level op) y, o = op

mutual

/-- Every right operand that repeats an operator repeats it all the way down its left side. -/
@[simp]
def Uniform : Phrase → Prop
  | .word _ => True
  | .array _ items => UniformAll items
  | .binary x op y => Uniform x ∧ Uniform y ∧ (repeats op y = true → Chain op y)
  | .cast x _ => Uniform x
  | .call _ args => UniformAll args
  | .inUnnest x y => Uniform x ∧ Uniform y
  | .index x y _ => Uniform x ∧ Uniform y
  | .member x _ => Uniform x
  | .unary _ x => Uniform x

/-- Uniformity of several phrases. -/
@[simp]
def UniformAll : List Phrase → Prop
  | [] => True
  | x :: rest => Uniform x ∧ UniformAll rest

end

/-- Several phrases are uniform when each of them is. -/
theorem uniformAll_iff {items : List Phrase} : UniformAll items ↔ ∀ t ∈ items, Uniform t := by
  induction items with
  | nil => simp [UniformAll]
  | cons x rest ih => simp [UniformAll, ih]

/-! ## Operators down the left side -/

/-- Grafting onto a phrase puts the operator and its left operand below everything else. -/
theorem spine_graft (x : Phrase) (op : BinaryOp) (y : Phrase) :
    spine (level op) (graft x op y) = spine (level op) y ++ op :: spine (level op) x := by
  induction y with
  | binary y o z ihy _ =>
    rw [graft]
    by_cases h : level o = level op
    · rw [if_pos h, spine, if_pos h, spine, if_pos h, ihy, List.cons_append]
    · rw [if_neg h, spine, if_pos rfl, spine, if_neg h, List.nil_append]
  | _ => simp only [graft, spine, if_true, List.nil_append]

/-- Nothing of a level stands down the left side of a phrase of another level. -/
theorem spine_eq_nil {p : Nat} {t : Phrase} (h : ∀ o, t.operator? = some o → level o ≠ p) :
    spine p t = [] := by
  cases t with
  | binary x o y => rw [spine, if_neg (h o rfl)]
  | _ => rfl

/-- An operator that chains with its left operand. -/
theorem chain_binary {op : BinaryOp} {x y : Phrase} : Chain op (.binary x op y) ↔ Chain op x := by
  simp [Chain, spine]

/-- Only one operator stands down the left side of a graft where this holds of both sides. -/
theorem chain_graft {op : BinaryOp} {x y : Phrase} :
    Chain op (graft x op y) ↔ Chain op y ∧ Chain op x := by
  simp [Chain, spine_graft, or_imp, forall_and]

/-- A phrase has one operator down its left side where it has once it is regrouped. -/
theorem chain_of_regroup {op : BinaryOp} {t : Phrase} (h : Chain op t.regroup) : Chain op t := by
  induction t with
  | binary x o y ihx _ =>
    by_cases hlevel : level o = level op
    · have ho : o = op := by
        refine h o ?_
        rw [← hlevel, regroup, attach]
        split
        · simp [spine_graft]
        · simp [spine]
      subst ho
      rw [regroup, attach] at h
      split at h
      · exact chain_binary.mpr (ihx (chain_graft.mp h).2)
      · exact chain_binary.mpr (ihx (chain_binary.mp h))
    · intro o' ho'
      rw [spine, if_neg hlevel] at ho'
      exact absurd ho' List.not_mem_nil
  | _ =>
    intro _ ho
    exact absurd ho List.not_mem_nil

/-- Regrouping a uniform phrase keeps the one operator down its left side. -/
theorem Uniform.chain_regroup {op : BinaryOp} {t : Phrase} (ht : Uniform t) (h : Chain op t) :
    Chain op t.regroup := by
  induction t with
  | binary x o y ihx ihy =>
    obtain ⟨hx, hy, hchain⟩ := ht
    by_cases hlevel : level o = level op
    · obtain rfl : o = op := h o (by simp [spine, hlevel])
      have hleft := ihx hx (chain_binary.mp h)
      rw [regroup, attach]
      split
      next hagain => exact chain_graft.mpr ⟨ihy hy (hchain hagain), hleft⟩
      next => exact chain_binary.mpr hleft
    · intro o' ho'
      rw [spine_eq_nil] at ho'
      · exact absurd ho' List.not_mem_nil
      · rintro o'' htop
        rw [operator?_regroup] at htop
        obtain rfl : o = o'' := by simpa [operator?] using htop
        exact hlevel
  | _ =>
    intro _ ho
    exact absurd ho List.not_mem_nil

/-! ## Values of regrouped phrases -/

variable {V : Type} {I : Interpretation V}

/-- An associative operator may be grafted onto a phrase that has no other one on the way. -/
theorem eval_graft {op : BinaryOp} (hI : I.Associative) (hop : op.isAssociative = true)
    (x : Phrase) {y : Phrase} (hy : Chain op y) :
    eval I (graft x op y) = I.binary op (eval I x) (eval I y) := by
  induction y with
  | binary a o b iha _ =>
    by_cases hlevel : level o = level op
    · obtain rfl : o = op := hy o (by simp [spine, hlevel])
      have hassoc := hI o ((isAssociative_iff o).mp hop) (eval I x) (eval I a) (eval I b)
      rw [graft, if_pos rfl, eval, iha (chain_binary.mp hy), hassoc, eval]
    · rw [graft, if_neg hlevel, eval]
  | _ => rfl

/-- Several regrouped phrases have the values of the phrases when each of them has. -/
theorem evalAll_regroupAll {items : List Phrase}
    (h : ∀ t ∈ items, eval I t.regroup = eval I t) :
    evalAll I (regroupAll items) = evalAll I items := by
  induction items with
  | nil => rfl
  | cons x rest ih =>
    rw [regroupAll, evalAll, evalAll, h x List.mem_cons_self,
      ih fun t ht => h t (List.mem_cons_of_mem _ ht)]

/-- Regrouping a uniform phrase keeps its value wherever grouping does not matter. -/
theorem eval_regroup (hI : I.Associative) {t : Phrase} (ht : Uniform t) :
    eval I t.regroup = eval I t := by
  induction t with
  | word => rfl
  | array type items ih =>
    have hitems := uniformAll_iff.mp ht
    rw [regroup, eval, eval, evalAll_regroupAll fun t hmem => ih t hmem (hitems t hmem)]
  | binary x op y ihx ihy =>
    obtain ⟨hx, hy, hchain⟩ := ht
    rw [regroup, attach]
    split
    next hagain =>
      have hop := isAssociative_of_repeats hagain
      rw [eval_graft hI hop _ (hy.chain_regroup (hchain hagain)), ihx hx, ihy hy, eval]
    next => rw [eval, eval, ihx hx, ihy hy]
  | cast x type ih => rw [regroup, eval, eval, ih ht]
  | call name args ih =>
    have hargs := uniformAll_iff.mp ht
    rw [regroup, eval, eval, evalAll_regroupAll fun t hmem => ih t hmem (hargs t hmem)]
  | inUnnest x y ihx ihy => rw [regroup, eval, eval, ihx ht.1, ihy ht.2]
  | index x y mode ihx ihy => rw [regroup, eval, eval, ihx ht.1, ihy ht.2]
  | member x field ih => rw [regroup, eval, eval, ih ht]
  | unary op x ih => rw [regroup, eval, eval, ih ht]

end Phrase

end TypedSql.Sql
