import TypedSql.Proofs.Expr.Typing

/-!
# Typing comes to an end

Typing a node asks for the typing of its operands, and for a second typing of an operand that has
been typed already when only the other one has shown a mapping. Such an operand is no part of the
node any more, but it has as many nodes as the part had. So every request is for fewer nodes than
the node has, and typing that goes no deeper than the expression is large finds what typing finds.
-/

namespace TypedSql

/-- A computation that asks for expressions to be typed, each by a wanted mapping or by its value,
and goes on with what they are answered by. -/
inductive Asking (α : Type) where
  | done (result : α)
  | ask (wanted : Option Mapping) (e : Expr) (next : Expr → Asking α)

namespace Asking

variable {α β : Type}

/-- One computation after another. -/
protected def bind : Asking α → (α → Asking β) → Asking β
  | done a, f => f a
  | ask wanted e next, f => ask wanted e fun e' => (next e').bind f

instance : Monad Asking where
  pure := done
  bind := Asking.bind

/-- Asks for an expression to be typed. -/
def request (wanted : Option Mapping) (e : Expr) : Asking Expr := ask wanted e done

/-- Asks for several expressions to be typed alike, one after the other. -/
def requests (wanted : Option Mapping) : List Expr → Asking (List Expr)
  | [] => return []
  | e :: rest => do
    let e ← request wanted e
    let rest ← requests wanted rest
    return e :: rest

/-! ## Answering requests -/

section Answering

variable (answer : Option Mapping → Expr → Expr)

/-- The result of a computation, when its requests are answered. -/
def result : Asking α → α
  | done a => a
  | ask wanted e next => (next (answer wanted e)).result

/-- The expressions that are asked for, in order, when requests are answered. -/
def asked : Asking α → List Expr
  | done _ => []
  | ask wanted e next => e :: (next (answer wanted e)).asked

@[simp]
theorem result_pure (a : α) : (pure a : Asking α).result answer = a := rfl

@[simp]
theorem result_request (wanted : Option Mapping) (e : Expr) :
    (request wanted e).result answer = answer wanted e := rfl

@[simp]
theorem result_bind (x : Asking α) (f : α → Asking β) :
    (x >>= f).result answer = (f (x.result answer)).result answer := by
  induction x with
  | done => rfl
  | ask wanted e next ih => exact ih (answer wanted e)

@[simp]
theorem result_requests (wanted : Option Mapping) (es : List Expr) :
    (requests wanted es).result answer = es.map (answer wanted) := by
  induction es with
  | nil => rfl
  | cons e rest ih => simp [requests, ih]

end Answering

/-- Carries out a computation with answers that may fail. -/
def run? (answer? : Option Mapping → Expr → Option Expr) : Asking α → Option α
  | done a => some a
  | ask wanted e next => (answer? wanted e).bind fun e' => (next e').run? answer?

/-! ## Sizes of requests -/

/-- A computation asks for expressions below a size, and its result is as described, as long as
every answer has the size of the expression that was asked for. -/
def Within (n : Nat) (post : α → Prop) : Asking α → Prop
  | done a => post a
  | ask _ e next => e.size < n ∧ ∀ e', e'.size = e.size → (next e').Within n post

namespace Within

variable {n : Nat} {post : α → Prop} {x : Asking α}

/-- What asks for nothing. -/
theorem pure {a : α} (h : post a) : (Pure.pure a : Asking α).Within n post := h

/-- One request. -/
theorem request {e : Expr} (wanted : Option Mapping) (h : e.size < n) :
    (Asking.request wanted e).Within n (·.size = e.size) := ⟨h, fun _ h => h⟩

/-- One computation after another. -/
theorem bind {post' : β → Prop} {f : α → Asking β} (hx : x.Within n post)
    (hf : ∀ a, post a → (f a).Within n post') : (x >>= f).Within n post' := by
  induction x with
  | done a => exact hf a hx
  | ask wanted e next ih => exact ⟨hx.1, fun e' he' => ih e' (hx.2 e' he')⟩

/-- Several requests, one after the other. -/
theorem requests {es : List Expr} (wanted : Option Mapping) (h : ∀ e ∈ es, e.size < n) :
    (Asking.requests wanted es).Within n (Expr.sizeAll · = Expr.sizeAll es) := by
  induction es with
  | nil => exact pure rfl
  | cons e rest ih =>
    obtain ⟨he, hrest⟩ := List.forall_mem_cons.mp h
    refine bind (request wanted he) fun e' he' => bind (ih hrest) fun rest' hrest' => pure ?_
    rw [Expr.sizeAll, Expr.sizeAll, he', hrest']

section Answering

variable {answer : Option Mapping → Expr → Expr} (hsize : ∀ wanted e, (answer wanted e).size = e.size)

include hsize

/-- What is asked for is below the size. -/
theorem asked (h : x.Within n post) : ∀ e ∈ x.asked answer, e.size < n := by
  induction x with
  | done => exact List.forall_mem_nil _
  | ask wanted e next ih => exact List.forall_mem_cons.mpr ⟨h.1, ih _ (h.2 _ (hsize wanted e))⟩

/-- Answers that do not fail below the size are enough. -/
theorem run? {answer? : Option Mapping → Expr → Option Expr} (h : x.Within n post)
    (hanswer : ∀ wanted e, e.size < n → answer? wanted e = some (answer wanted e)) :
    x.run? answer? = some (x.result answer) := by
  induction x with
  | done => rfl
  | ask wanted e next ih =>
    rw [Asking.run?, hanswer wanted e h.1, Option.bind_some]
    exact ih _ (h.2 _ (hsize wanted e))

end Answering

end Within

/-! ## Typing as a computation that asks -/

/-- Operands typed by each other, after both are typed by their values when neither has a
mapping. -/
def operands (l r : Expr) : Asking (Expr × Expr) :=
  match l.mapping?, r.mapping? with
  | some _, some _ => return (l, r)
  | some m, none => return (l, ← request (some m) r)
  | none, some m => return (← request (some m) l, r)
  | none, none => do
    let l ← request none l
    let r ← request none r
    match l.mapping?, r.mapping? with
    | some m, none => return (l, ← request (some m) r)
    | none, some m => return (← request (some m) l, r)
    | _, _ => return (l, r)

/-- A binary operation on operands that are typed by each other. -/
def operation (l : Expr) (op : BinaryOp) (r : Expr) : Asking Expr := do
  let (l, r) ← operands l r
  return .binary l op r (Expr.binaryMapping op l.mapping? r.mapping?)

/-- A negated truth value. -/
def negation (x : Expr) : Asking Expr :=
  return .unary .not (← request (some Builtin.bool.mapping) x) (some Builtin.bool.mapping)

/-- A negated number. -/
def negative (x : Expr) : Asking Expr := do
  let x ← request none x
  return .unary .negate x x.mapping?

/-- An element of an array. -/
def elementAt (array index : Expr) (mode : IndexMode) : Asking Expr := do
  let array ← request none array
  let index ← request (some Builtin.int64.mapping) index
  return .index array index mode (Expr.elementMapping? array)

/-- Membership of an item in an array. -/
def membership (item array : Expr) : Asking Expr := do
  let array ← request none array
  let item ← request (Expr.elementMapping? array) item
  return .inUnnest item array (some Builtin.bool.mapping)

/-- One level of typing: an untyped node takes the wanted mapping or the one that follows from its
parts. -/
def node (c : Catalog) (wanted : Option Mapping) : Expr → Asking Expr
  | .constant value _ => return .constant value (wanted.or (c.resolveValue value))
  | .binary l op r _ =>
    match wanted with
    | some m =>
      if op.isComparison || op.isLogical then operation l op r
      else do
        let l ← request (some m) l
        let r ← request (some m) r
        return .binary l op r (some m)
    | none => operation l op r
  | .unary .not x _ => negation x
  | .unary .negate x _ =>
    match wanted with
    | some m => return .unary .negate (← request (some m) x) (some m)
    | none => negative x
  | .array es type elementMapping _ => do
    let mapping := wanted.or (c.resolveType (.listOf type))
    let elementMapping := elementMapping.or (mapping.bind Mapping.element?)
    let es ← requests elementMapping es
    return .array es type elementMapping mapping
  | .index arr idx mode _ => do
    match ← elementAt arr idx mode with
    | .index arr idx mode own => return .index arr idx mode (own.or wanted)
    | e => return e
  | .inUnnest item arr _ => membership item arr
  | e => return e

/-! ## Every request is for fewer nodes -/

section Sizes

variable {n : Nat} {l r x : Expr}

/-- Operands are asked for once or twice. -/
theorem within_operands (hl : l.size < n) (hr : r.size < n) :
    (operands l r).Within n fun typed => typed.1.size = l.size ∧ typed.2.size = r.size := by
  unfold operands
  split
  next => exact .pure ⟨rfl, rfl⟩
  next => exact .bind (.request _ hr) fun _ hr' => .pure ⟨rfl, hr'⟩
  next => exact .bind (.request _ hl) fun _ hl' => .pure ⟨hl', rfl⟩
  next =>
    refine .bind (.request none hl) fun l' hl' => .bind (.request none hr) fun r' hr' => ?_
    -- the typed operands are as large as the ones before, so they can be asked for again
    split
    next => exact .bind (.request _ (hr' ▸ hr)) fun _ hr'' => .pure ⟨hl', hr''.trans hr'⟩
    next => exact .bind (.request _ (hl' ▸ hl)) fun _ hl'' => .pure ⟨hl''.trans hl', hr'⟩
    next => exact .pure ⟨hl', hr'⟩

/-- A binary operation asks for its operands. -/
theorem within_operation (op : BinaryOp) (hl : l.size < n) (hr : r.size < n) :
    (operation l op r).Within n (·.size = l.size + r.size + 1) :=
  .bind (within_operands hl hr) fun _ h => .pure (by rw [Expr.size, h.1, h.2])

/-- A negated truth value asks for its operand. -/
theorem within_negation (h : x.size < n) : (negation x).Within n (·.size = x.size + 1) :=
  .bind (.request _ h) fun _ hx => .pure (by rw [Expr.size, hx])

/-- A negated number asks for its operand. -/
theorem within_negative (h : x.size < n) : (negative x).Within n (·.size = x.size + 1) :=
  .bind (.request _ h) fun _ hx => .pure (by rw [Expr.size, hx])

/-- An element of an array asks for the array and for the index. -/
theorem within_elementAt (mode : IndexMode) (hl : l.size < n) (hr : r.size < n) :
    (elementAt l r mode).Within n (·.size = l.size + r.size + 1) :=
  .bind (.request _ hl) fun _ hl' => .bind (.request _ hr) fun _ hr' =>
    .pure (by rw [Expr.size, hl', hr'])

/-- A membership asks for the array and for the item. -/
theorem within_membership (hl : l.size < n) (hr : r.size < n) :
    (membership l r).Within n (·.size = l.size + r.size + 1) :=
  .bind (.request _ hr) fun _ hr' => .bind (.request _ hl) fun _ hl' =>
    .pure (by rw [Expr.size, hl', hr'])

/-- Typing a node asks for expressions with fewer nodes only, and keeps the number of nodes, as long
as the answers do. -/
theorem within_node (c : Catalog) (wanted : Option Mapping) (e : Expr) :
    (node c wanted e).Within e.size (·.size = e.size) := by
  cases e with
  | constant v m => exact .pure rfl
  | binary l op r m =>
    have hoperation : (operation l op r).Within (Expr.binary l op r m).size
        (·.size = (Expr.binary l op r m).size) :=
      within_operation op Expr.size_left_lt Expr.size_right_lt
    cases wanted with
    | none => exact hoperation
    | some w =>
      rw [node]
      split
      next => exact hoperation
      next =>
        exact .bind (.request _ Expr.size_left_lt) fun _ hl =>
          .bind (.request _ Expr.size_right_lt) fun _ hr =>
            .pure (by rw [Expr.size, Expr.size, hl, hr])
  | unary op x m =>
    cases op with
    | not => exact within_negation Expr.size_operand_lt
    | negate =>
      cases wanted with
      | none => exact within_negative Expr.size_operand_lt
      | some w =>
        exact .bind (.request _ Expr.size_operand_lt) fun _ hx =>
          .pure (by rw [Expr.size, Expr.size, hx])
  | array es type elementMapping m =>
    exact .bind (.requests _ Expr.size_arrayElement_lt) fun _ hes =>
      .pure (by rw [Expr.size, Expr.size, hes])
  | index arr idx mode m =>
    refine .bind (within_elementAt mode Expr.size_indexed_lt Expr.size_index_lt) fun e he => ?_
    split
    next => exact .pure he
    next => exact .pure he
  | inUnnest item arr m => exact within_membership Expr.size_item_lt Expr.size_unnested_lt
  | cast | column | call | member | parameter => exact .pure rfl

end Sizes

/-! ## What is found -/

section Found

variable (c : Catalog)

/-- Operands are typed by each other as typing does it. -/
theorem result_operands (l r : Expr) :
    (operands l r).result (Expr.annotate c) = Expr.operands c l r := by
  rw [operands, Expr.operands, Expr.isTyped, Expr.isTyped]
  cases hl : l.mapping? with
  | some m =>
    cases hr : r.mapping? with
    | some => simp [Expr.typedByOther, hl, hr]
    | none =>
      simp only [Expr.typedByOther, hl, hr]
      rfl
  | none =>
    cases hr : r.mapping? with
    | some m =>
      simp only [Expr.typedByOther, hl, hr]
      rfl
    | none =>
      simp only [result_bind, result_request, Expr.typedByOther, Expr.applyDefault]
      cases (Expr.annotate c none l).mapping? <;> cases (Expr.annotate c none r).mapping? <;> rfl

/-- A binary operation is the one that typing makes. -/
theorem result_operation (l : Expr) (op : BinaryOp) (r : Expr) :
    (operation l op r).result (Expr.annotate c) = Expr.operation c l op r := by
  rw [Expr.operation_eq, ← result_operands, operation, result_bind]
  rfl

/-- An element of an array is the one that typing makes. -/
theorem result_elementAt (array index : Expr) (mode : IndexMode) :
    (elementAt array index mode).result (Expr.annotate c) = Expr.elementAt c array index mode := by
  change Expr.index _ _ _ (Expr.elementMapping? _) =
    Expr.index _ _ _ ((Expr.elementMapping? _).or none)
  rw [Option.or_none]
  rfl

/-- An untyped node is typed as typing does it. -/
theorem result_node (wanted : Option Mapping) {e : Expr} (h : e.isTyped = false) :
    (node c wanted e).result (Expr.annotate c) = Expr.annotate c wanted e := by
  cases e, h using Expr.untypedCases with
  | array es type elementMapping =>
    rw [Expr.annotate_array, node, result_bind, result_requests]
    rfl
  | binary l op r =>
    rcases Expr.binaryForms op wanted with hop | ⟨m, rfl, hop⟩
    · rw [Expr.annotate_operation l r hop, ← result_operation]
      rcases hop with rfl | hop
      · rfl
      · cases wanted with
        | none => rfl
        | some m => rw [node, if_pos hop]
    · rw [Expr.annotate_arithmetic l r m hop]
      simp only [node, hop]
      rfl
  | constant v =>
    rw [Expr.annotate_constant]
    rfl
  | inUnnest item arr =>
    rw [Expr.annotate_inUnnest]
    rfl
  | index arr idx mode =>
    rw [Expr.annotate_index]
    rfl
  | unary op x =>
    cases op with
    | not =>
      rw [Expr.annotate_not]
      rfl
    | negate =>
      cases wanted with
      | none =>
        rw [Expr.annotate_negate_none]
        rfl
      | some m =>
        rw [Expr.annotate_negate]
        rfl

end Found

end Asking

namespace Expr

/-- Every expression has a node. -/
theorem size_pos (e : Expr) : 0 < e.size := by
  cases e <;> exact Nat.succ_pos _

/-- Typing that goes no deeper than allowed. -/
def annotate? (c : Catalog) : (depth : Nat) → Option Mapping → Expr → Option Expr
  | 0, _, _ => none
  | depth + 1, wanted, e =>
    if e.isTyped then some e else (Asking.node c wanted e).run? (annotate? c depth)

variable {c : Catalog} {depth : Nat}

/-- A depth of the number of nodes is enough. -/
theorem annotate?_eq (wanted : Option Mapping) {e : Expr} (h : e.size ≤ depth) :
    annotate? c depth wanted e = some (annotate c wanted e) := by
  induction depth generalizing wanted e with
  | zero => exact absurd h (Nat.not_le_of_gt e.size_pos)
  | succ depth ih =>
    rw [annotate?]
    cases htyped : e.isTyped with
    | true => rw [if_pos rfl, annotate_of_isTyped htyped]
    | false =>
      rw [if_neg Bool.false_ne_true, ← Asking.result_node c wanted htyped]
      exact (Asking.within_node c wanted e).run? (size_annotate c) fun wanted e' he' =>
        ih wanted (Nat.le_of_lt_succ (Nat.lt_of_lt_of_le he' h))

/-- Whatever asks for expressions that are no larger than a depth finds what typing answers. -/
theorem run?_annotate? {α : Type} {post : α → Prop} {x : Asking α} (h : x.Within (depth + 1) post) :
    x.run? (annotate? c depth) = some (x.result (annotate c)) :=
  h.run? (size_annotate c) fun wanted _ he => annotate?_eq wanted (Nat.le_of_lt_succ he)

/-- Typing comes to an end. A node asks for the typing of expressions with fewer nodes only, also
where it asks for an operand that has been typed already, and keeps the number of nodes, as long as
the answers do. So typing keeps the number of nodes, and what it asks for has fewer nodes. Typing
that goes no deeper than the expression has nodes, or than the operands of an operation have, finds
what typing finds. -/
theorem typing_terminates (c : Catalog) :
    (∀ wanted e, (Asking.node c wanted e).Within e.size (·.size = e.size)) ∧
    (∀ wanted e, (annotate c wanted e).size = e.size ∧
      ∀ x ∈ (Asking.node c wanted e).asked (annotate c), x.size < e.size) ∧
    (∀ wanted e extra, annotate? c (e.size + extra) wanted e = some (annotate c wanted e)) ∧
    ∀ l r op mode extra,
      (Asking.operation l op r).run? (annotate? c (l.size + r.size + extra)) =
        some (operation c l op r) ∧
      (Asking.negation l).run? (annotate? c (l.size + extra)) = some (negation c l) ∧
      (Asking.negative l).run? (annotate? c (l.size + extra)) = some (negative c l) ∧
      (Asking.elementAt l r mode).run? (annotate? c (l.size + r.size + extra)) =
        some (elementAt c l r mode) ∧
      (Asking.membership l r).run? (annotate? c (l.size + r.size + extra)) =
        some (membership c l r) := by
  refine ⟨Asking.within_node c, fun wanted e => ⟨size_annotate c wanted e, ?_⟩,
    fun wanted e extra => annotate?_eq wanted (Nat.le_add_right _ _),
    fun l r op mode extra => ⟨?_, ?_, ?_, ?_, ?_⟩⟩
  · exact (Asking.within_node c wanted e).asked (size_annotate c)
  · rw [run?_annotate? (Asking.within_operation op (by omega) (by omega)), Asking.result_operation]
  · exact run?_annotate? (Asking.within_negation (by omega))
  · exact run?_annotate? (Asking.within_negative (by omega))
  · rw [run?_annotate? (Asking.within_elementAt mode (by omega) (by omega)),
      Asking.result_elementAt]
  · exact run?_annotate? (Asking.within_membership (by omega) (by omega))

end Expr

end TypedSql
