import TypedSql.Catalog.Resolve
import TypedSql.Expr.Basic

/-!
# Typing expressions

Untyped expressions take their mapping from the context, and otherwise from their value: an
untyped constant compared with a column takes the mapping of the column. Typing keeps the number
of nodes, which is what its recursion rests on, since operands are typed a second time when only
one of them has shown a type.
-/

namespace TypedSql.Expr

variable {c : Catalog} {n : Nat}

/-- Typing of all expressions below a size, by a wanted mapping or by their values. -/
abbrev Annotator (n : Nat) :=
  (e : Expr) → e.size < n → Option Mapping → { e' : Expr // e'.size = e.size }

/-- The mapping of the elements of an array expression. -/
def elementMapping? (array : Expr) : Option Mapping := array.mapping?.bind Mapping.element?

/-- The mapping of an arithmetic operation or a concatenation, from those of its operands. -/
def arithmeticMapping (op : BinaryOp) (left right : Option Mapping) : Option Mapping :=
  let is (kind : ScalarKind) (m : Option Mapping) : Bool := m.any (·.hasKind kind)
  if op = .concat then left.or right
  else if op = .divide ∧ is .int64 left ∧ is .int64 right then some Builtin.float64.mapping
  else if is .float64 left ∨ is .float64 right then some Builtin.float64.mapping
  else if is .decimal right ∧ (right.any (·.isBigNumeric) ∨ ¬is .decimal left) then right
  else left.or right

/-- The mapping of a binary operation, from those of its operands. -/
def binaryMapping (op : BinaryOp) (left right : Option Mapping) : Option Mapping :=
  if op.isComparison || op.isLogical then some Builtin.bool.mapping
  else arithmeticMapping op left right

/-- Operands typed by each other, and those that neither types by their values. -/
def inferOperands (annotate : Annotator n) (l r : Expr) (hl : l.size < n) (hr : r.size < n) :
    { p : Expr × Expr // p.1.size = l.size ∧ p.2.size = r.size } :=
  match l.mapping?, r.mapping? with
  | some _, some _ => ⟨(l, r), rfl, rfl⟩
  | some m, none => ⟨(l, annotate r hr (some m)), rfl, (annotate r hr (some m)).2⟩
  | none, some m => ⟨(annotate l hl (some m), r), (annotate l hl (some m)).2, rfl⟩
  | none, none =>
    let l' := annotate l hl none
    let r' := annotate r hr none
    match l'.1.mapping?, r'.1.mapping? with
    | some m, none =>
      let again := annotate r'.1 (by rw [r'.2]; exact hr) (some m)
      ⟨(l', again), l'.2, by rw [again.2, r'.2]⟩
    | none, some m =>
      let again := annotate l'.1 (by rw [l'.2]; exact hl) (some m)
      ⟨(again, r'), by rw [again.2, l'.2], r'.2⟩
    | _, _ => ⟨(l', r'), l'.2, r'.2⟩

/-- A binary operation on operands that have been typed by each other. -/
def binaryBy (annotate : Annotator n) (l : Expr) (op : BinaryOp) (r : Expr) (hl : l.size < n)
    (hr : r.size < n) : { e : Expr // e.size = l.size + r.size + 1 } :=
  let operands := inferOperands annotate l r hl hr
  ⟨.binary operands.1.1 op operands.1.2
      (binaryMapping op operands.1.1.mapping? operands.1.2.mapping?),
    by rw [size, operands.2.1, operands.2.2]⟩

/-- A negated truth value. -/
def notBy (annotate : Annotator n) (x : Expr) (h : x.size < n) :
    { e : Expr // e.size = x.size + 1 } :=
  let x' := annotate x h (some Builtin.bool.mapping)
  ⟨.unary .not x' (some Builtin.bool.mapping), by rw [size, x'.2]⟩

/-- A negated number. -/
def negateBy (annotate : Annotator n) (x : Expr) (h : x.size < n) :
    { e : Expr // e.size = x.size + 1 } :=
  let x' := annotate x h none
  ⟨.unary .negate x' x'.1.mapping?, by rw [size, x'.2]⟩

/-- An element of an array; without an element mapping of its own it takes the wanted one. -/
def indexBy (annotate : Annotator n) (array index : Expr) (mode : IndexMode)
    (wanted : Option Mapping) (ha : array.size < n) (hi : index.size < n) :
    { e : Expr // e.size = array.size + index.size + 1 } :=
  let array' := annotate array ha none
  let index' := annotate index hi (some Builtin.int64.mapping)
  ⟨.index array' index' mode ((elementMapping? array').or wanted), by rw [size, array'.2, index'.2]⟩

/-- Membership in an array; the item takes the mapping of the elements. -/
def inUnnestBy (annotate : Annotator n) (item array : Expr) (hi : item.size < n)
    (ha : array.size < n) : { e : Expr // e.size = item.size + array.size + 1 } :=
  let array' := annotate array ha none
  let item' := annotate item hi (elementMapping? array')
  ⟨.inUnnest item' array' (some Builtin.bool.mapping), by rw [size, item'.2, array'.2]⟩

/-- Several expressions typed alike. -/
def allBy (annotate : Annotator n) (wanted : Option Mapping) :
    (es : List Expr) → (∀ e ∈ es, e.size < n) → { es' : List Expr // sizeAll es' = sizeAll es }
  | [], _ => ⟨[], rfl⟩
  | e :: rest, h =>
    let e' := annotate e (h e (List.mem_cons_self ..)) wanted
    let rest' := allBy annotate wanted rest fun x hx => h x (List.mem_cons_of_mem _ hx)
    ⟨e' :: rest', by rw [sizeAll, sizeAll, e'.2, rest'.2]⟩

/-- One level of typing: an untyped node takes the wanted mapping or the one that follows from its
parts, which are typed by `annotate`. -/
def annotateNode (c : Catalog) (e : Expr) (annotate : Annotator e.size) (wanted : Option Mapping) :
    { e' : Expr // e'.size = e.size } :=
  match e, annotate with
  | .constant value _, _ =>
    ⟨.constant value (wanted.or (c.resolveValue value)), by simp only [size]⟩
  | .binary l op r _, annotate =>
    have hl : l.size < (Expr.binary l op r none).size := size_left_lt
    have hr : r.size < (Expr.binary l op r none).size := size_right_lt
    match wanted with
    | some m =>
      if op.isComparison || op.isLogical then
        let e' := binaryBy annotate l op r hl hr
        ⟨e', by rw [e'.2, size]⟩
      else
        let l' := annotate l hl (some m)
        let r' := annotate r hr (some m)
        ⟨.binary l' op r' (some m), by rw [size, size, l'.2, r'.2]⟩
    | none =>
      let e' := binaryBy annotate l op r hl hr
      ⟨e', by rw [e'.2, size]⟩
  | .unary op x _, annotate =>
    have hx : x.size < (Expr.unary op x none).size := size_operand_lt
    match op, wanted with
    | .not, _ =>
      let e' := notBy annotate x hx
      ⟨e', by rw [e'.2, size]⟩
    | .negate, some m =>
      let x' := annotate x hx (some m)
      ⟨.unary .negate x' (some m), by rw [size, size, x'.2]⟩
    | .negate, none =>
      let e' := negateBy annotate x hx
      ⟨e', by rw [e'.2, size]⟩
  | .array elements elementType elementMapping _, annotate =>
    let mapping := wanted.or (c.resolveType (.listOf elementType))
    let elementMapping := elementMapping.or (mapping.bind Mapping.element?)
    let elements' := allBy annotate elementMapping elements size_arrayElement_lt
    ⟨.array elements' elementType elementMapping mapping, by rw [size, size, elements'.2]⟩
  | .index arr idx mode _, annotate =>
    let e' := indexBy annotate arr idx mode wanted size_indexed_lt size_index_lt
    ⟨e', by rw [e'.2, size]⟩
  | .inUnnest item arr _, annotate =>
    let e' := inUnnestBy annotate item arr size_item_lt size_unnested_lt
    ⟨e', by rw [e'.2, size]⟩
  | .cast x m, _ => ⟨.cast x m, rfl⟩
  | .column table name m, _ => ⟨.column table name m, rfl⟩
  | .call name args m, _ => ⟨.call name args m, rfl⟩
  | .member x name m, _ => ⟨.member x name m, rfl⟩
  | .parameter name value m, _ => ⟨.parameter name value m, rfl⟩

/-- Types an expression that has no mapping; with its size. -/
def annotated (c : Catalog) (e : Expr) (wanted : Option Mapping) :
    { e' : Expr // e'.size = e.size } :=
  if e.isTyped then ⟨e, rfl⟩
  else annotateNode c e (fun x _ w => annotated c x w) wanted
termination_by e.size

/-- Gives an untyped expression the wanted mapping, or the one of its value. -/
def annotate (c : Catalog) (wanted : Option Mapping) (e : Expr) : Expr := annotated c e wanted

/-- Gives an untyped expression a mapping. -/
def applyMapping (c : Catalog) (e : Expr) (m : Mapping) : Expr := annotate c (some m) e

/-- Gives an untyped expression the mapping of its value. -/
def applyDefault (c : Catalog) (e : Expr) : Expr := annotate c none e

/-- Typing keeps the number of nodes. -/
theorem size_annotate (c : Catalog) (wanted : Option Mapping) (e : Expr) :
    (annotate c wanted e).size = e.size := (annotated c e wanted).2

/-- Typed expressions stay as they are. -/
theorem annotate_of_isTyped {e : Expr} (h : e.isTyped = true) (wanted : Option Mapping) :
    annotate c wanted e = e := by
  unfold annotate annotated
  simp [h]

end TypedSql.Expr
