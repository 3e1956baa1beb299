import TypedSql.Proofs.Sql.Grammar

/-!
# Regrouped phrases

A right operand that repeats an associative operator is written without parentheses, so that the
operator in front of it binds its leftmost part first. Regrouping a phrase moves every such operator
down the left side of its right operand, to where it is read.
-/

namespace TypedSql.Sql.Phrase

open Grammar

/-- Whether a right operand repeats the associative operator in front of it. -/
def repeats (op : BinaryOp) (y : Phrase) : Bool := op.isAssociative && y.operator? == some op

/-- Puts an operand and an operator in front of a phrase that has no parentheses of its own. -/
@[simp]
def graft (x : Phrase) (op : BinaryOp) : Phrase → Phrase
  | .binary y o z =>
    if level o = level op then .binary (graft x op y) o z else .binary x op (.binary y o z)
  | y => .binary x op y

/-- An operator between operands, moved to where it binds when the right one repeats it. -/
def attach (x : Phrase) (op : BinaryOp) (y : Phrase) (again : Bool) : Phrase :=
  if again then graft x op y else .binary x op y

mutual

/-- A phrase with every repeated associative operator where it is read. -/
@[simp]
def regroup : Phrase → Phrase
  | .word s => .word s
  | .array type items => .array type (regroupAll items)
  | .binary x op y => attach (regroup x) op (regroup y) (repeats op y)
  | .cast x type => .cast (regroup x) type
  | .call name args => .call name (regroupAll args)
  | .inUnnest x y => .inUnnest (regroup x) (regroup y)
  | .index x y mode => .index (regroup x) (regroup y) mode
  | .member x field => .member (regroup x) field
  | .unary op x => .unary op (regroup x)

/-- Several phrases regrouped. -/
@[simp]
def regroupAll : List Phrase → List Phrase
  | [] => []
  | x :: rest => regroup x :: regroupAll rest

end

/-- Grafting onto a phrase of another level puts the operator on top. -/
theorem graft_eq_binary {x y : Phrase} {op : BinaryOp}
    (h : ∀ o, y.operator? = some o → level o ≠ level op) : graft x op y = .binary x op y := by
  cases y with
  | binary y o z => rw [graft, if_neg (h o rfl)]
  | _ => rfl

/-- Grafting keeps the operator on top, or puts the new one there. -/
theorem operator?_graft (x : Phrase) (op : BinaryOp) (y : Phrase) :
    (graft x op y).operator? = some op ∨ (graft x op y).operator? = y.operator? := by
  cases y with
  | binary y o z =>
    rw [graft]
    split
    · exact Or.inr rfl
    · exact Or.inl rfl
  | _ => exact Or.inl rfl

/-- An attached operator is on top when it attaches to its own repetition. -/
theorem operator?_attach (x : Phrase) {op : BinaryOp} {y : Phrase} {again : Bool}
    (h : again = true → y.operator? = some op) : (attach x op y again).operator? = some op := by
  cases again with
  | false => rfl
  | true =>
    rcases operator?_graft x op y with hop | hop
    · exact hop
    · exact hop.trans (h rfl)

/-- A repeated operator is associative. -/
theorem isAssociative_of_repeats {op : BinaryOp} {y : Phrase} (h : repeats op y = true) :
    op.isAssociative = true :=
  (Bool.and_eq_true_iff.mp h).1

/-- A repeated operator is on top of the phrase that repeats it. -/
theorem operator?_of_repeats {op : BinaryOp} {y : Phrase} (h : repeats op y = true) :
    y.operator? = some op := by
  simpa using (Bool.and_eq_true_iff.mp h).2

/-- Regrouping keeps the operator on top. -/
theorem operator?_regroup (t : Phrase) : t.regroup.operator? = t.operator? := by
  induction t with
  | binary x op y _ ihy =>
    rw [regroup]
    exact operator?_attach _ fun h => ihy.trans (operator?_of_repeats h)
  | _ => rfl

/-- Operators of one level are grafted one after the other. -/
theorem graft_attach {x y z : Phrase} {op o : BinaryOp} (h : level o = level op) (again : Bool) :
    graft x op (attach y o z again) = attach (graft x op y) o z again := by
  cases again with
  | false =>
    change graft x op (.binary y o z) = .binary (graft x op y) o z
    rw [graft, if_pos h]
  | true =>
    simp only [attach, if_true]
    induction z with
    | binary a o' b iha _ =>
      by_cases ho : level o' = level o
      · rw [graft, if_pos ho, graft, if_pos (ho.trans h), iha, graft, if_pos ho]
      · rw [graft, if_neg ho, graft, if_pos h, graft, if_neg ho]
    | _ => simp only [graft, if_pos h]

end TypedSql.Sql.Phrase
