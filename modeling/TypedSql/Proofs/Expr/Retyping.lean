import Mathlib.Data.List.Forall2
import TypedSql.Proofs.Expr.Traversal
import TypedSql.Proofs.Expr.Typing

/-!
# Typing changes nothing but mappings

An expression that is typed keeps its form: without the mappings that nodes can go without it is
the same as before, and every subtree that had a mapping comes back as it was. Typing an expression
a second time changes nothing more.
-/

namespace TypedSql.Expr

/-! ## Expressions without mappings -/

/-- An expression without the mappings that its nodes can go without. -/
def skeleton (e : Expr) : Expr := e.transform untype

section Skeleton

variable (m : Option Mapping)

@[simp]
theorem skeleton_array (es : List Expr) (type : HostType) (elementMapping : Option Mapping) :
    (Expr.array es type elementMapping m).skeleton = .array (es.map skeleton) type none none :=
  transform_eq untype _

@[simp]
theorem skeleton_binary (l r : Expr) (op : BinaryOp) :
    (Expr.binary l op r m).skeleton = .binary l.skeleton op r.skeleton none := rfl

@[simp]
theorem skeleton_inUnnest (item arr : Expr) :
    (Expr.inUnnest item arr m).skeleton = .inUnnest item.skeleton arr.skeleton none := rfl

@[simp]
theorem skeleton_index (arr idx : Expr) (mode : IndexMode) :
    (Expr.index arr idx mode m).skeleton = .index arr.skeleton idx.skeleton mode none := rfl

@[simp]
theorem skeleton_unary (op : UnaryOp) (x : Expr) :
    (Expr.unary op x m).skeleton = .unary op x.skeleton none := rfl

end Skeleton

/-! ## Expressions that differ in mappings alone -/

/-- An expression typed anew: the same without its mappings, and with every subtree that had a
mapping as it was. -/
structure Retyped (e e' : Expr) : Prop where
  skeleton : e'.skeleton = e.skeleton
  kept : ∀ path s, e.at? path = some s → s.isTyped = true → e'.at? path = some s

namespace Retyped

variable {e e' e'' : Expr}

/-- An expression that is left alone. -/
theorem refl (e : Expr) : Retyped e e := ⟨rfl, fun _ _ h _ => h⟩

/-- An expression typed anew twice. -/
theorem trans (h : Retyped e e') (h' : Retyped e' e'') : Retyped e e'' :=
  ⟨h'.skeleton.trans h.skeleton, fun path s hs ht => h'.kept path s (h.kept path s hs ht) ht⟩

/-- What stands at a position among parts typed anew is typed anew. -/
theorem exists_part {parts parts' : List Expr} (h : List.Forall₂ Retyped parts parts') {i : Nat}
    {part : Expr} (hi : parts[i]? = some part) :
    ∃ part', parts'[i]? = some part' ∧ Retyped part part' := by
  induction h generalizing i with
  | nil => simp at hi
  | cons hfirst _ ih =>
    cases i with
    | zero =>
      obtain rfl : _ = part := by simpa using hi
      exact ⟨_, rfl, hfirst⟩
    | succ i => exact ih (by simpa using hi)

/-- An untyped node over parts typed anew. -/
theorem node (hnode : e.isTyped = false) (hskeleton : e'.skeleton = e.skeleton)
    (hparts : List.Forall₂ Retyped e.children e'.children) : Retyped e e' := by
  refine ⟨hskeleton, fun path s hs ht => ?_⟩
  cases path with
  | nil =>
    obtain rfl : e = s := by simpa [at?] using hs
    simp [hnode] at ht
  | cons i path =>
    obtain ⟨part, hpart, hs⟩ := Option.bind_eq_some_iff.mp hs
    obtain ⟨part', hpart', hretyped⟩ := exists_part hparts hpart
    rw [at?, hpart', Option.bind_some]
    exact hretyped.kept path s hs ht

end Retyped

variable {c : Catalog} {wanted : Option Mapping}

/-- Typing operands by each other types each of them anew. -/
theorem retyped_typedByOther {l r : Expr} (hl : ∀ wanted, Retyped l (annotate c wanted l))
    (hr : ∀ wanted, Retyped r (annotate c wanted r)) :
    Retyped l (typedByOther c l r).1 ∧ Retyped r (typedByOther c l r).2 := by
  unfold typedByOther
  split
  · exact ⟨.refl l, hr _⟩
  · exact ⟨hl _, .refl r⟩
  · exact ⟨.refl l, .refl r⟩

/-- Operands are typed anew, even when they are typed twice. -/
theorem retyped_operands {l r : Expr}
    (h : ∀ x : Expr, x.size = l.size ∨ x.size = r.size → ∀ wanted, Retyped x (annotate c wanted x)) :
    Retyped l (operands c l r).1 ∧ Retyped r (operands c l r).2 := by
  rw [operands]
  split
  next => exact retyped_typedByOther (h l (.inl rfl)) (h r (.inr rfl))
  next =>
    have hl := h l (.inl rfl) none
    have hr := h r (.inr rfl) none
    obtain ⟨hl', hr'⟩ := retyped_typedByOther (c := c)
      (h (applyDefault c l) (.inl (size_annotate c none l)))
      (h (applyDefault c r) (.inr (size_annotate c none r)))
    exact ⟨hl.trans hl', hr.trans hr'⟩

/-- Typing an expression changes nothing but mappings that it did not have. -/
theorem retyped_annotate (e : Expr) (wanted : Option Mapping) :
    Retyped e (annotate c wanted e) := by
  -- by size, since operands may be typed again after they have been typed by their values
  induction hn : e.size using Nat.strongRecOn generalizing e wanted with
  | ind n ih =>
    subst hn
    cases h : e.isTyped with
    | true =>
      rw [annotate_of_isTyped h]
      exact .refl e
    | false =>
      cases e, h using untypedCases with
      | array es type elementMapping =>
        have hes : ∀ x ∈ es, ∀ wanted, Retyped x (annotate c wanted x) :=
          fun x hx wanted => ih _ (size_arrayElement_lt x hx) x wanted rfl
        rw [annotate_array]
        refine .node rfl ?_ ?_
        · simp only [skeleton_array, List.map_map]
          exact congrArg (Expr.array · type none none)
            (List.map_congr_left fun x hx => (hes x hx _).skeleton)
        · exact List.forall₂_map_right_iff.mpr (List.forall₂_same.mpr fun x hx => hes x hx _)
      | binary l op r =>
        have hoperand : ∀ x : Expr, x.size = l.size ∨ x.size = r.size →
            ∀ wanted, Retyped x (annotate c wanted x) := by
          intro x hx wanted
          refine ih _ ?_ x wanted rfl
          rcases hx with hx | hx
          · exact hx ▸ size_left_lt
          · exact hx ▸ size_right_lt
        rcases binaryForms op wanted with hop | ⟨m, rfl, hop⟩
        · obtain ⟨hl, hr⟩ := retyped_operands hoperand
          rw [annotate_operation l r hop, operation_eq]
          exact .node rfl (by simp [hl.skeleton, hr.skeleton]) (.cons hl (.cons hr .nil))
        · have hl : Retyped l (applyMapping c l m) := hoperand l (.inl rfl) _
          have hr : Retyped r (applyMapping c r m) := hoperand r (.inr rfl) _
          rw [annotate_arithmetic l r m hop]
          exact .node rfl (by simp [hl.skeleton, hr.skeleton]) (.cons hl (.cons hr .nil))
      | constant v =>
        rw [annotate_constant]
        exact .node rfl rfl .nil
      | inUnnest item arr =>
        have hitem := ih _ size_item_lt item (elementMapping? (applyDefault c arr)) rfl
        have harr : Retyped arr (applyDefault c arr) := ih _ size_unnested_lt arr none rfl
        rw [annotate_inUnnest]
        refine .node rfl ?_ (.cons hitem (.cons harr .nil))
        rw [skeleton_inUnnest, skeleton_inUnnest, hitem.skeleton, harr.skeleton]
      | index arr idx mode =>
        have harr : Retyped arr (applyDefault c arr) := ih _ size_indexed_lt arr none rfl
        have hidx : Retyped idx (applyMapping c idx Builtin.int64.mapping) :=
          ih _ size_index_lt idx _ rfl
        rw [annotate_index]
        exact .node rfl (by simp [harr.skeleton, hidx.skeleton]) (.cons harr (.cons hidx .nil))
      | unary op x =>
        have hx : ∀ wanted, Retyped x (annotate c wanted x) :=
          fun wanted => ih _ size_operand_lt x wanted rfl
        have hnode (m : Option Mapping) (w : Option Mapping) :
            Retyped (.unary op x none) (.unary op (annotate c w x) m) :=
          .node rfl (by simp [(hx w).skeleton]) (.cons (hx w) .nil)
        cases op with
        | not =>
          rw [annotate_not]
          exact hnode _ _
        | negate =>
          cases wanted with
          | none =>
            rw [annotate_negate_none]
            exact hnode _ none
          | some m =>
            rw [annotate_negate]
            exact hnode _ (some m)

/-! ## Typing twice -/

/-- Operands that both stay untyped were left alone. -/
theorem typedByOther_untyped {l r : Expr} (hl : (typedByOther c l r).1.mapping? = none)
    (hr : (typedByOther c l r).2.mapping? = none) : typedByOther c l r = (l, r) := by
  cases hlm : l.mapping? <;> cases hrm : r.mapping? <;> simp_all [typedByOther]

/-- Operands that both stay untyped have been typed by their values, and by nothing else. -/
theorem operands_untyped {l r : Expr} (hl : (operands c l r).1.mapping? = none)
    (hr : (operands c l r).2.mapping? = none) :
    operands c l r = (applyDefault c l, applyDefault c r) := by
  rw [operands] at hl hr ⊢
  split at hl
  next htyped =>
    simp only [htyped, if_true] at hr
    have heq := typedByOther_untyped hl hr
    rw [heq] at hl hr
    simp [isTyped, hl, hr] at htyped
  next htyped =>
    simp only [htyped] at hr ⊢
    exact typedByOther_untyped hl hr

/-- An operation without a mapping has operands without one. -/
theorem binaryMapping_eq_none {op : BinaryOp} {l r : Option Mapping}
    (h : binaryMapping op l r = none) : l = none ∧ r = none := by
  grind [binaryMapping, arithmeticMapping]

/-- Operands that both stay untyped are left alone when they are typed again. -/
theorem operands_again {l r : Expr} (hl : applyDefault c (applyDefault c l) = applyDefault c l)
    (hr : applyDefault c (applyDefault c r) = applyDefault c r)
    (hl' : (operands c l r).1.mapping? = none) (hr' : (operands c l r).2.mapping? = none) :
    operands c (operands c l r).1 (operands c l r).2 = operands c l r := by
  have heq := operands_untyped hl' hr'
  rw [heq] at hl' hr' ⊢
  rw [operands, isTyped, isTyped, hl', hr', hl, hr]
  exact typedByOther_untyped (by simp [typedByOther, hl', hr']) (by simp [typedByOther, hl', hr'])

/-- What has a mapping is left alone, so only what has none is left to show. -/
theorem annotate_eq_self {e : Expr} (h : e.mapping? = none → annotate c wanted e = e) :
    annotate c wanted e = e := by
  cases hm : e.mapping? with
  | none => exact h hm
  | some m => exact annotate_of_isTyped (by rw [isTyped, hm]; rfl) wanted

/-- Typing an expression a second time changes nothing. -/
theorem annotate_annotate (e : Expr) (wanted : Option Mapping) :
    annotate c wanted (annotate c wanted e) = annotate c wanted e := by
  induction hn : e.size using Nat.strongRecOn generalizing e wanted with
  | ind n ih =>
    subst hn
    cases wanted with
    | some m => exact annotate_of_isTyped (isTyped_applyMapping e m) _
    | none =>
      cases h : e.isTyped with
      | true => rw [annotate_of_isTyped h, annotate_of_isTyped h]
      | false =>
        cases e, h using untypedCases with
        | array es type elementMapping =>
          rw [annotate_array]
          refine annotate_eq_self fun (hm : c.resolveType (.listOf type) = none) => ?_
          have hby (w : Option Mapping) : elementsBy c type w none = w := by
            rw [elementsBy, hm]
            exact Option.or_none
          have hes : es.map (annotate c elementMapping ∘ annotate c elementMapping) =
              es.map (annotate c elementMapping) :=
            List.map_congr_left fun x hx => ih _ (size_arrayElement_lt x hx) x elementMapping rfl
          rw [hby, hm, Option.or_none, annotate_array, hby, hm, List.map_map, hes]
          rfl
        | binary l op r =>
          rw [annotate_operation l r (.inl rfl), operation_eq]
          refine annotate_eq_self fun (hm : binaryMapping op _ _ = none) => ?_
          obtain ⟨hl, hr⟩ := binaryMapping_eq_none hm
          have hagain : operands c (operands c l r).1 (operands c l r).2 = operands c l r :=
            operands_again (ih _ size_left_lt l none rfl) (ih _ size_right_lt r none rfl) hl hr
          rw [hm, annotate_operation _ _ (.inl rfl), operation_eq, hagain, hm]
        | constant v =>
          rw [annotate_constant]
          refine annotate_eq_self fun (hm : c.resolveValue v = none) => ?_
          rw [hm, Option.or_none, annotate_constant, hm, Option.or_none]
        | inUnnest item arr =>
          rw [annotate_inUnnest]
          exact annotate_of_isTyped rfl _
        | index arr idx mode =>
          rw [annotate_index]
          refine annotate_eq_self fun (hm : (elementMapping? _).or none = none) => ?_
          have harr : applyDefault c (applyDefault c arr) = applyDefault c arr :=
            ih _ size_indexed_lt arr none rfl
          have hidx : applyMapping c (applyMapping c idx Builtin.int64.mapping)
              Builtin.int64.mapping = applyMapping c idx Builtin.int64.mapping :=
            annotate_of_isTyped (isTyped_applyMapping idx _) _
          rw [hm, annotate_index, harr, hidx, hm]
        | unary op x =>
          cases op with
          | not =>
            rw [annotate_not]
            exact annotate_of_isTyped rfl _
          | negate =>
            rw [annotate_negate_none]
            refine annotate_eq_self fun (hm : (applyDefault c x).mapping? = none) => ?_
            have hx : applyDefault c (applyDefault c x) = applyDefault c x :=
              ih _ size_operand_lt x none rfl
            rw [hm, annotate_negate_none, hx, hm]

/-! ## Typing an expression -/

/-- Applying a mapping, or the mapping of the value, adds mappings to an expression and changes
nothing else: what was typed stands where it stood, as it was. An applied mapping leaves no
expression untyped, and neither operation does anything more the second time. -/
theorem retyped_apply (c : Catalog) (e : Expr) (m : Mapping) :
    (Retyped e (applyMapping c e m) ∧ Retyped e (applyDefault c e)) ∧
      (applyMapping c e m).isTyped = true ∧
      applyMapping c (applyMapping c e m) m = applyMapping c e m ∧
      applyDefault c (applyDefault c e) = applyDefault c e :=
  ⟨⟨retyped_annotate e (some m), retyped_annotate e none⟩, isTyped_applyMapping e m,
    annotate_annotate e (some m), annotate_annotate e none⟩

end TypedSql.Expr
