import TypedSql.Proofs.Result
import TypedSql.Proofs.Sql.Binding

/-!
# Where writing fails

Writing goes on after a fault but keeps the first one. Whether a node can be written depends on this
node alone. With which fault it fails may depend on the parameters bound before, since a constant
that cannot be sent is named in its fault by the name generated for it; nothing that is written
later matters.
-/

namespace TypedSql.Sql

open Result Parameters

/-! ## Single nodes -/

/-- A node can be written: an array has a mapping, a parameter can be sent, and a constant can be
written as a literal or sent, whichever is asked for. Null alone needs no mapping for this. -/
def Writable (c : Catalog) : Expr → Prop
  | .array _ _ _ m => m.isSome
  | .constant v m =>
    match constantMapping? c m v with
    | none => v.isNull
    | some m =>
      if c.settings.inlineConstants then Succeeds (Literal.render m v)
      else Succeeds (Wire.value m v)
  | .parameter _ v m => Succeeds (Wire.value m v)
  | _ => True

/-- The fault of a parameter that cannot be sent, which names it. -/
def bindingFault? (name : String) (m : Mapping) (v : Value) : Option Fault :=
  (fault? (Wire.value m v)).map (·.inside (.bindingParameter name))

/-- The fault of a node that is written after a list of parameters. -/
def nodeFault? (ctx : Context) (ps : List Parameter) : Expr → Option Fault
  | .array _ _ _ m => if m.isSome then none else some (.of (.feature .untypedArray))
  | .constant v m =>
    match constantMapping? ctx.catalog m v with
    | none => if v.isNull then none else some (.of (.feature (.untypedConstant v)))
    | some m =>
      if ctx.catalog.settings.inlineConstants then fault? (Literal.render m v)
      else bindingFault? (freshName (ctx.reserved ++ names ps) 0) m v
  | .parameter name v m => bindingFault? name m v
  | _ => none

variable {ctx : Context}

/-- A parameter has no fault when it can be sent. -/
theorem bindingFault?_eq_none {name : String} {m : Mapping} {v : Value} :
    bindingFault? name m v = none ↔ Succeeds (Wire.value m v) :=
  Option.map_eq_none_iff.trans fault?_eq_none

/-- A node that can be written has no fault, whatever was bound before. -/
theorem nodeFault?_eq_none {ps : List Parameter} {e : Expr} :
    nodeFault? ctx ps e = none ↔ Writable ctx.catalog e := by
  cases e with
  | array _ _ _ m => cases m <;> simp [nodeFault?, Writable]
  | constant v m =>
    rw [nodeFault?, Writable]
    cases constantMapping? ctx.catalog m v with
    | none => cases v.isNull <;> simp
    | some m =>
      cases ctx.catalog.settings.inlineConstants with
      | true => exact fault?_eq_none
      | false => exact bindingFault?_eq_none
  | parameter name v m => exact bindingFault?_eq_none
  | _ => exact iff_of_true rfl trivial

/-! ## Steps -/

/-- A step of writing reports a fault after each list of parameters: it stands behind an earlier
one, which changes nothing about the parameters that are left. -/
structure Reports (step : Emit) (report : List Parameter → Option Fault) : Prop where
  fault (s : Progress) : (step.run s).2.fault = s.fault.or (report s.parameters)
  parameters (s : Progress) :
    (step.run s).2.parameters = (step.run ⟨s.parameters, none⟩).2.parameters

/-- Recording a fault reports it. -/
theorem reports_fail (fault : Fault) : Reports (fail fault) fun _ => some fault :=
  ⟨fun _ => rfl, fun _ => rfl⟩

/-- Writing fixed pieces reports nothing. -/
theorem reports_pure (pieces : List Lexeme) : Reports (pure pieces) fun _ => none :=
  ⟨fun _ => Option.or_none.symm, fun _ => rfl⟩

/-- Binding a value reports that it cannot be sent. -/
theorem reports_bind (name : String) (m : Mapping) (v : Value) :
    Reports (bind ctx (.of name v) m) fun _ => bindingFault? name m v := by
  cases hvalue : Wire.value m v with
  | error fault =>
    rw [bind_of_error hvalue, bindingFault?, hvalue]
    exact reports_fail _
  | ok w =>
    have hconfigure : (Parameter.of name v).configure ctx.catalog.settings m =
        .ok (((Parameter.of name v).tag ctx.catalog.settings m).withValue w) := by
      simp [Parameter.configure, Parameter.of, hvalue, Except.map]
    rw [bind, hconfigure, bindingFault?, hvalue]
    exact ⟨fun _ => Option.or_none.symm, fun _ => rfl⟩

/-- A constant of a mapping reports that it cannot be written in the form that is asked for. -/
theorem reports_typedConstant (m : Mapping) (v : Value) :
    Reports (typedConstant ctx m v) fun ps =>
      if ctx.catalog.settings.inlineConstants then fault? (Literal.render m v)
      else bindingFault? (freshName (ctx.reserved ++ names ps) 0) m v := by
  unfold typedConstant
  split
  next =>
    rw [Literal.render, fault?_map]
    cases Literal.literal m v with
    | error fault => exact reports_fail fault
    | ok text => exact reports_pure _
  next =>
    -- the name depends on the parameters, and not on a fault
    exact ⟨fun s => (reports_bind _ m v).fault s, fun s => (reports_bind _ m v).parameters s⟩

/-- A constant reports its fault. -/
theorem reports_constant (m : Option Mapping) (v : Value) :
    Reports (constant ctx m v) fun ps => nodeFault? ctx ps (.constant v m) := by
  cases m with
  | some m => exact reports_typedConstant m v
  | none =>
    unfold constant nodeFault? constantMapping?
    dsimp only
    cases v.isNull with
    | true => exact reports_pure _
    | false =>
      cases ctx.catalog.resolveValue v with
      | some m => exact reports_typedConstant m v
      | none => exact reports_fail _

/-- A leaf reports its fault. -/
theorem reports_leaf {e : Expr} (h : IsLeaf e) :
    Reports (emit ctx e) fun ps => nodeFault? ctx ps e := by
  cases h with
  | constant => exact reports_constant _ _
  | parameter => exact reports_bind _ _ _
  | untypedArray => exact reports_fail _

/-! ## The first fault -/

/-- The parameters after nodes have been written in turn. -/
def parametersAfter (ctx : Context) (ps : List Parameter) (nodes : List Expr) : List Parameter :=
  nodes.foldl (fun ps node => ((emit ctx node).run ⟨ps, none⟩).2.parameters) ps

/-- The fault of the first node that fails when nodes are written in turn. -/
def firstFault? (ctx : Context) : List Parameter → List Expr → Option Fault
  | _, [] => none
  | ps, node :: rest =>
    (nodeFault? ctx ps node).or (firstFault? ctx (parametersAfter ctx ps [node]) rest)

/-- Filling slots leaves the fault that was there, or the first one among the leaves. -/
theorem fault_fill_eq {slots : List Slot} (h : ∀ e ∈ leavesOf slots, IsLeaf e) (s : Progress) :
    ((fill ctx slots).run s).2.fault =
      s.fault.or (firstFault? ctx s.parameters (leavesOf slots)) := by
  induction slots generalizing s with
  | nil => exact Option.or_none.symm
  | cons slot rest ih =>
    cases slot with
    | piece => exact ih h s
    | leaf e =>
      rw [leavesOf_leaf, List.forall_mem_cons] at h
      obtain ⟨hleaf, hrest⟩ := h
      have hreports : Reports (emit ctx e) fun ps => nodeFault? ctx ps e := reports_leaf hleaf
      calc
        ((fill ctx (.leaf e :: rest)).run s).2.fault =
            ((fill ctx rest).run ((emit ctx e).run s).2).2.fault := rfl
        _ = (s.fault.or (nodeFault? ctx s.parameters e)).or
              (firstFault? ctx (parametersAfter ctx s.parameters [e]) (leavesOf rest)) := by
          rw [ih hrest, hreports.fault, hreports.parameters]
          rfl
        _ = _ := Option.or_assoc

/-- There is no first fault when every node can be written. -/
theorem firstFault?_eq_none {ps : List Parameter} {nodes : List Expr} :
    firstFault? ctx ps nodes = none ↔ ∀ node ∈ nodes, Writable ctx.catalog node := by
  induction nodes generalizing ps with
  | nil => exact iff_of_true rfl fun _ h => absurd h List.not_mem_nil
  | cons node rest ih =>
    rw [firstFault?, Option.or_eq_none_iff, nodeFault?_eq_none, ih, List.forall_mem_cons]

/-- The first fault is that of a node behind none but nodes that can be written. -/
theorem firstFault?_eq_some {ps : List Parameter} {nodes : List Expr} {fault : Fault} :
    firstFault? ctx ps nodes = some fault ↔ ∃ before node after,
      nodes = before ++ node :: after ∧ (∀ x ∈ before, Writable ctx.catalog x) ∧
        nodeFault? ctx (parametersAfter ctx ps before) node = some fault := by
  induction nodes generalizing ps with
  | nil => simp [firstFault?]
  | cons node rest ih =>
    rw [firstFault?, Option.or_eq_some_iff, ih, nodeFault?_eq_none]
    constructor
    · rintro (hfault | ⟨hnode, before, failing, after, rfl, hbefore, hfault⟩)
      · exact ⟨[], node, rest, rfl, fun _ h => absurd h List.not_mem_nil, hfault⟩
      · exact ⟨node :: before, failing, after, rfl, List.forall_mem_cons.mpr ⟨hnode, hbefore⟩,
          hfault⟩
    · rintro ⟨before, failing, after, heq, hbefore, hfault⟩
      cases before with
      | nil =>
        obtain ⟨rfl, rfl⟩ := List.cons.inj heq
        exact .inl hfault
      | cons first before =>
        obtain ⟨rfl, rfl⟩ := List.cons.inj heq
        rw [List.forall_mem_cons] at hbefore
        exact .inr ⟨hbefore.1, before, failing, after, rfl, hbefore.2, hfault⟩

/-! ## Expressions -/

/-- The text of an expression fails with the first fault among its leaves. -/
theorem fault?_write (c : Catalog) (e : Expr) (ps : List Parameter) :
    fault? (write c e ps).1 = firstFault? ⟨c, e.parameterNames⟩ ps (leavesOf (slots e)) := by
  have hwrite : fault? (write c e ps).1 = (lexemes c e ps).2.fault := by
    unfold write
    generalize lexemes c e ps = run
    obtain ⟨pieces, progress⟩ := run
    cases h : progress.fault <;> simp [h]
  rw [hwrite, lexemes_eq]
  exact (fault_fill_eq (fun leaf hleaf => (of_mem_leavesOf hleaf).2) _).trans Option.none_or

/-- The leaves of a list of parts can be written when the nodes of each part can. -/
private theorem forall_writable_flatMap {c : Catalog} {parts : List Expr}
    (ih : ∀ e ∈ parts, (∀ leaf ∈ leavesOf (slots e), Writable c leaf) ↔
      ∀ node ∈ e.nodes, Writable c node) :
    (∀ leaf ∈ parts.flatMap fun e => leavesOf (slots e), Writable c leaf) ↔
      ∀ node ∈ parts.flatMap Expr.nodes, Writable c node := by
  rw [List.forall_mem_flatMap, List.forall_mem_flatMap]
  exact forall₂_congr ih

attribute [local simp] slots Expr.nodes Expr.nodesOfAll_eq or_imp forall_and

/-- The leaves of an expression can be written when all its nodes can. -/
theorem forall_writable_leaves {c : Catalog} {e : Expr} :
    (∀ leaf ∈ leavesOf (slots e), Writable c leaf) ↔ ∀ node ∈ e.nodes, Writable c node := by
  induction e with
  | array elements elementType elementMapping mapping ih =>
    cases mapping with
    | none =>
      -- the elements are not written, and both sides fail at the array itself
      have hown : ¬ Writable c (.array elements elementType elementMapping none) :=
        Bool.false_ne_true
      simp [hown]
    | some m =>
      have hown : Writable c (.array elements elementType elementMapping (some m)) := rfl
      simpa [hown] using forall_writable_flatMap ih
  | call function args mapping ih =>
    have hown : Writable c (.call function args mapping) := trivial
    simpa [hown] using forall_writable_flatMap ih
  | binary left op right mapping ihl ihr =>
    have hown : Writable c (.binary left op right mapping) := trivial
    simp [ihl, ihr, hown]
  | inUnnest item array mapping ihl ihr =>
    have hown : Writable c (.inUnnest item array mapping) := trivial
    simp [ihl, ihr, hown]
  | index array index mode mapping ihl ihr =>
    have hown : Writable c (.index array index mode mapping) := trivial
    simp [ihl, ihr, hown]
  | cast operand mapping ih =>
    have hown : Writable c (.cast operand mapping) := trivial
    simp [ih, hown]
  | member operand field mapping ih =>
    have hown : Writable c (.member operand field mapping) := trivial
    simp [ih, hown]
  | unary op operand mapping ih =>
    have hown : Writable c (.unary op operand mapping) := trivial
    simp [ih, hown]
  | column table name mapping =>
    have hown : Writable c (.column table name mapping) := trivial
    simp [hown]
  | constant | parameter => simp

/-- An expression is written when every constant of it can be written as a literal, or sent when
constants are not inlined, every parameter can be sent and every array has a mapping. Else it fails
with the fault of the first leaf that cannot be written, after the parameters that the leaves before
it have left; an array without a mapping is such a leaf, and its elements are none. -/
theorem write_fails_first (c : Catalog) (e : Expr) (ps : List Parameter) :
    (Succeeds (write c e ps).1 ↔ ∀ node ∈ e.nodes, Writable c node) ∧
    ∀ fault, (write c e ps).1 = .error fault ↔ ∃ before leaf after,
      leavesOf (slots e) = before ++ leaf :: after ∧ (∀ x ∈ before, Writable c x) ∧
      nodeFault? ⟨c, e.parameterNames⟩ (parametersAfter ⟨c, e.parameterNames⟩ ps before) leaf =
        some fault := by
  constructor
  · rw [← fault?_eq_none, fault?_write, firstFault?_eq_none, forall_writable_leaves]
  · intro fault
    rw [← fault?_eq_some, fault?_write, firstFault?_eq_some]

end TypedSql.Sql
