import TypedSql.Proofs.Sql.Meaning

/-!
# The free interpretation

An interpretation of phrases by phrases in which associative operators group to the right and
everything else stands for itself. It identifies no more than associativity forces, so that a phrase
which keeps its value there when it is regrouped keeps it everywhere.

The number of leaves in front of the first occurrence of an operator tells the groupings of one
operator apart.
-/

namespace TypedSql.Sql.Phrase

open Grammar

/-- An operator between phrases, the left one taken apart so that the operator groups to the
right. -/
@[simp]
def merge (op : BinaryOp) : Phrase → Phrase → Phrase
  | .binary a o b, y =>
    if o = op then .binary a op (merge op b y) else .binary (.binary a o b) op y
  | x, y => .binary x op y

/-- The interpretation by phrases. -/
def free : Interpretation Phrase where
  word := .word
  array := .array
  binary op x y := if op.isAssociative then merge op x y else .binary x op y
  cast := .cast
  call := .call
  inUnnest := .inUnnest
  index := .index
  member := .member
  unary := .unary

/-- The number of operands between the operators on top of a phrase. -/
@[simp]
def weight : Phrase → Nat
  | .binary x _ y => weight x + weight y
  | _ => 1

/-- The number of operands in front of an operator on top of a phrase, or of all of them. -/
@[simp]
def headWeight (op : BinaryOp) : Phrase → Nat
  | .binary x o y => if o = op then weight x else weight x + weight y
  | _ => 1

/-! ## Merged phrases -/

/-- Every phrase has an operand. -/
theorem weight_pos (t : Phrase) : 0 < weight t := by
  induction t with
  | binary x op y ihx _ => exact Nat.add_pos_left ihx _
  | _ => exact Nat.one_pos

/-- Merging keeps the operands of both sides. -/
theorem weight_merge (op : BinaryOp) (x y : Phrase) :
    weight (merge op x y) = weight x + weight y := by
  induction x with
  | binary a o b _ ihb =>
    rw [merge]
    split
    · rw [weight, ihb, weight, Nat.add_assoc]
    · rfl
  | _ => rfl

/-- Merging puts its operator on top. -/
theorem operator?_merge (op : BinaryOp) (x y : Phrase) : (merge op x y).operator? = some op := by
  cases x with
  | binary a o b =>
    rw [merge]
    split <;> rfl
  | _ => rfl

/-- Merging is associative. -/
theorem merge_assoc (op : BinaryOp) (x y z : Phrase) :
    merge op (merge op x y) z = merge op x (merge op y z) := by
  induction x with
  | binary a o b _ ihb =>
    by_cases h : o = op
    · rw [merge, if_pos h, merge, if_pos rfl, ihb, merge, if_pos h]
    · simp only [merge, if_neg h, if_true]
  | _ => simp only [merge, if_true]

/-- A phrase with another operator on top stays whole. -/
theorem merge_eq_binary {op : BinaryOp} {x : Phrase} (h : x.operator? ≠ some op) (y : Phrase) :
    merge op x y = .binary x op y := by
  cases x with
  | binary a o b => rw [merge, if_neg fun ho => h (congrArg some ho)]
  | _ => rfl

/-- A phrase with the operator on top is taken apart. -/
theorem merge_binary (a : Phrase) (op : BinaryOp) (b y : Phrase) :
    merge op (.binary a op b) y = .binary a op (merge op b y) := by
  rw [merge, if_pos rfl]

/-- Phrases with an operator on top are binary. -/
theorem eq_binary_of_operator? {op : BinaryOp} {t : Phrase} (h : t.operator? = some op) :
    ∃ a b, t = .binary a op b := by
  cases t with
  | binary a o b => exact ⟨a, b, by rw [Option.some.inj h]⟩
  | _ => cases h

/-- A phrase that stays whole is the only one of its weight in front of a merged one. -/
theorem merge_cancel_of_ne {op : BinaryOp} {x x' y y' : Phrase} (hx : x.operator? ≠ some op)
    (hweight : weight x = weight x') (h : merge op x y = merge op x' y') : x = x' ∧ y = y' := by
  rw [merge_eq_binary hx] at h
  by_cases hx' : x'.operator? = some op
  · obtain ⟨a, b, rfl⟩ := eq_binary_of_operator? hx'
    rw [merge_binary] at h
    have ha : x = a := (Phrase.binary.inj h).1
    have hpos := weight_pos b
    rw [weight, ha] at hweight
    omega
  · rw [merge_eq_binary hx'] at h
    obtain ⟨ha, -, hb⟩ := Phrase.binary.inj h
    exact ⟨ha, hb⟩

/-- Merged phrases with equally many operands on the left have equal sides. -/
theorem merge_cancel {op : BinaryOp} {x x' y y' : Phrase} (hweight : weight x = weight x')
    (h : merge op x y = merge op x' y') : x = x' ∧ y = y' := by
  induction x generalizing x' with
  | binary a o b _ ihb =>
    by_cases ho : o = op
    · subst ho
      by_cases hx' : x'.operator? = some o
      · obtain ⟨a', b', rfl⟩ := eq_binary_of_operator? hx'
        rw [merge_binary, merge_binary] at h
        obtain ⟨rfl, -, hrest⟩ := Phrase.binary.inj h
        simp only [weight, Nat.add_left_cancel_iff] at hweight
        obtain ⟨rfl, hy⟩ := ihb hweight hrest
        exact ⟨rfl, hy⟩
      · obtain ⟨hx, hy⟩ := merge_cancel_of_ne hx' hweight.symm h.symm
        exact ⟨hx.symm, hy.symm⟩
    · exact merge_cancel_of_ne (fun h => ho (Option.some.inj h)) hweight h
  | _ => exact merge_cancel_of_ne (by simp [operator?]) hweight h

/-- No more operands stand in front of an operator than there are. -/
theorem headWeight_le (op : BinaryOp) (t : Phrase) : headWeight op t ≤ weight t := by
  cases t with
  | binary x o y =>
    rw [headWeight, weight]
    split
    · exact Nat.le_add_right _ _
    · exact Nat.le_refl _
  | _ => exact Nat.le_refl 1

/-- The operands in front of an operator come from the left side. -/
theorem headWeight_merge (op : BinaryOp) (x y : Phrase) :
    headWeight op (merge op x y) = headWeight op x := by
  cases x with
  | binary a o b =>
    rw [merge]
    split
    next h => rw [headWeight, if_pos rfl, headWeight, if_pos h]
    next h => rw [headWeight, if_pos rfl, headWeight, if_neg h, weight]
  | _ => simp only [merge, headWeight, weight, if_true]

/-- All operands count where another operator is on top. -/
theorem headWeight_eq_weight {op : BinaryOp} {t : Phrase} (h : t.operator? ≠ some op) :
    headWeight op t = weight t := by
  cases t with
  | binary x o y => rw [headWeight, if_neg fun ho => h (congrArg some ho), weight]
  | _ => rfl

/-! ## Values -/

/-- Grouping does not matter under the free interpretation. -/
theorem free_associative : free.Associative := by
  intro op hop a b c
  have hassoc := (isAssociative_iff op).mpr hop
  simp only [free, hassoc, if_true]
  exact merge_assoc op a b c

/-- The operator of a value is the operator of the phrase. -/
theorem operator?_binary_free (op : BinaryOp) (x y : Phrase) :
    (free.binary op x y).operator? = some op := by
  change (if op.isAssociative then merge op x y else .binary x op y).operator? = some op
  split
  · exact operator?_merge op x y
  · rfl

/-- The value of an operator keeps the operands of both sides. -/
theorem weight_binary_free (op : BinaryOp) (x y : Phrase) :
    weight (free.binary op x y) = weight x + weight y := by
  change weight (if op.isAssociative then merge op x y else .binary x op y) = _
  split
  · exact weight_merge op x y
  · rfl

/-- A phrase and its value have equally many operands. -/
theorem weight_eval_free (t : Phrase) : weight (eval free t) = weight t := by
  induction t with
  | binary x op y ihx ihy => rw [eval, weight_binary_free, ihx, ihy, weight]
  | _ => rfl

/-- Grafting keeps the operands of both sides. -/
theorem weight_graft (x : Phrase) (op : BinaryOp) (y : Phrase) :
    weight (graft x op y) = weight x + weight y := by
  induction y with
  | binary a o b iha _ =>
    rw [graft]
    split
    · rw [weight, iha, weight, Nat.add_assoc]
    · rfl
  | _ => rfl

/-- Regrouping keeps the number of operands. -/
theorem weight_regroup (t : Phrase) : weight t.regroup = weight t := by
  induction t with
  | binary x op y ihx ihy =>
    rw [regroup, attach]
    split
    · rw [weight_graft, ihx, ihy, weight]
    · rw [weight, ihx, ihy, weight]
  | _ => rfl

/-- Another operator on the way keeps a grafted operator from coming first. -/
theorem lt_headWeight_graft {op : BinaryOp} (hop : op.isAssociative = true) (x : Phrase)
    {y : Phrase} (hy : ¬Chain op y) :
    weight x < headWeight op (eval free (graft x op y)) := by
  induction y with
  | binary a o b iha _ =>
    by_cases hlevel : level o = level op
    · rw [graft, if_pos hlevel, eval]
      by_cases ho : o = op
      · subst ho
        have hleft := iha fun ha => hy (chain_binary.mpr ha)
        have hmerge : free.binary o (eval free (graft x o a)) (eval free b) =
            merge o (eval free (graft x o a)) (eval free b) := if_pos hop
        rwa [hmerge, headWeight_merge]
      · have htop :
            (free.binary o (eval free (graft x op a)) (eval free b)).operator? ≠ some op := by
          rw [operator?_binary_free]
          intro h
          exact ho (Option.some.inj h)
        have hpos := weight_pos a
        rw [headWeight_eq_weight htop, weight_binary_free, weight_eval_free, weight_graft]
        omega
    · refine absurd (fun o' ho' => ?_) hy
      rw [spine, if_neg hlevel] at ho'
      exact absurd ho' List.not_mem_nil
  | _ => exact absurd (fun _ ho => absurd ho List.not_mem_nil) hy

/-- Values of binary phrases with equally many operands on the left have equal parts. -/
theorem free_binary_cancel {op : BinaryOp} {x x' y y' : Phrase} (hweight : weight x = weight x')
    (h : free.binary op x y = free.binary op x' y') : x = x' ∧ y = y' := by
  change (if op.isAssociative then merge op x y else .binary x op y) =
    (if op.isAssociative then merge op x' y' else .binary x' op y') at h
  split at h
  · exact merge_cancel hweight h
  · simpa using h

/-- Several regrouped phrases keep their values only if each of them does. -/
theorem forall_eval_regroup {V : Type} {I : Interpretation V} {items : List Phrase}
    (h : evalAll I (regroupAll items) = evalAll I items) :
    ∀ t ∈ items, eval I t.regroup = eval I t := by
  induction items with
  | nil =>
    intro t ht
    exact absurd ht List.not_mem_nil
  | cons x rest ih =>
    simp only [regroupAll, evalAll, List.cons.injEq] at h
    intro t ht
    rcases List.mem_cons.mp ht with rfl | ht
    · exact h.1
    · exact ih h.2 t ht

/-- A phrase that keeps its value under the free interpretation when it is regrouped is uniform. -/
theorem uniform_of_eval_free {t : Phrase} (h : eval free t.regroup = eval free t) : Uniform t := by
  induction t with
  | word => trivial
  | array type items ih =>
    obtain ⟨-, hitems⟩ := Phrase.array.inj h
    exact uniformAll_iff.mpr fun t ht => ih t ht (forall_eval_regroup hitems t ht)
  | binary x op y ihx ihy =>
    have hweight : weight (eval free x.regroup) = weight (eval free x) := by
      rw [weight_eval_free, weight_regroup, weight_eval_free]
    rw [regroup, attach] at h
    split at h
    next hagain =>
      have hop := isAssociative_of_repeats hagain
      have hchain : Chain op y.regroup := by
        refine Classical.byContradiction fun hno => ?_
        have hlt := lt_headWeight_graft hop x.regroup hno
        have hmerge : eval free (.binary x op y) = merge op (eval free x) (eval free y) :=
          if_pos hop
        have hle := headWeight_le op (eval free x)
        rw [h, hmerge, headWeight_merge, ← weight_eval_free, hweight] at hlt
        omega
      rw [eval_graft free_associative hop _ hchain, eval] at h
      obtain ⟨hx, hy⟩ := free_binary_cancel hweight h
      exact ⟨ihx hx, ihy hy, fun _ => chain_of_regroup hchain⟩
    next hagain =>
      rw [eval, eval] at h
      obtain ⟨hx, hy⟩ := free_binary_cancel hweight h
      exact ⟨ihx hx, ihy hy, fun h => absurd h hagain⟩
  | cast x type ih => exact ih (Phrase.cast.inj h).1
  | call name args ih =>
    obtain ⟨-, hargs⟩ := Phrase.call.inj h
    exact uniformAll_iff.mpr fun t ht => ih t ht (forall_eval_regroup hargs t ht)
  | inUnnest x y ihx ihy =>
    obtain ⟨hx, hy⟩ := Phrase.inUnnest.inj h
    exact ⟨ihx hx, ihy hy⟩
  | index x y mode ihx ihy =>
    obtain ⟨hx, hy, -⟩ := Phrase.index.inj h
    exact ⟨ihx hx, ihy hy⟩
  | member x field ih => exact ih (Phrase.member.inj h).1
  | unary op x ih => exact ih (Phrase.unary.inj h).2

/-- Regrouping keeps the value of exactly the uniform phrases wherever grouping does not matter. -/
theorem forall_eval_regroup_iff (t : Phrase) :
    (∀ (V : Type) (I : Interpretation V), I.Associative → eval I t.regroup = eval I t) ↔
      Uniform t := by
  constructor
  · intro h
    exact uniform_of_eval_free (h Phrase free free_associative)
  · intro ht V I hI
    exact eval_regroup hI ht

end TypedSql.Sql.Phrase
