import TypedSql.Proofs.Sql.Layout
import TypedSql.Proofs.Wire.Naming

/-!
# What placeholders refer to

A run over the slots of an expression binds one parameter for each constant and each parameter that
is sent, and writes its placeholder. A name that is bound is put over only by a parameter that has
this name itself, since all generated names are free. Constants avoid the names of all parameters
in the expression, so they keep their values. A parameter without a name avoids only the names that
are bound by then, and loses its value to a later parameter that has the generated name.
-/

namespace TypedSql.Sql

open Parameters

/-- The placeholder of a parameter. -/
def placeholder (c : Catalog) (name : String) : Lexeme :=
  .word (c.settings.effectiveMarker.toList ++ name.toList)

/-- Placeholders tell names apart. -/
theorem placeholder_injective {c : Catalog} {m n : String} (h : placeholder c m = placeholder c n) :
    m = n := by
  rw [placeholder, placeholder, Lexeme.word.injEq] at h
  exact String.toList_injective (List.append_cancel_left h)

/-- The mapping by which a constant is written: its own, or that of its value unless it is null. -/
def constantMapping? (c : Catalog) (m : Option Mapping) (v : Value) : Option Mapping :=
  match m with
  | some m => some m
  | none => if v.isNull then none else c.resolveValue v

/-- The value that a constant in a slot binds: that of its wire type, unless it is written as a
literal, has no mapping or cannot be sent. -/
def Slot.boundConstant? (c : Catalog) : Slot → Option Value
  | .leaf (.constant v m) =>
    if c.settings.inlineConstants then none
    else (constantMapping? c m v).bind fun m => (Wire.value m v).toOption
  | _ => none

/-- The value that a parameter in a slot binds: that of its wire type, if it can be sent. -/
def Slot.boundParameter? : Slot → Option Value
  | .leaf (.parameter _ v m) => (Wire.value m v).toOption
  | _ => none

/-- The name that the parameter of a slot is bound under after a list of parameters. -/
def Slot.nameAfter (ctx : Context) (ps : List Parameter) : Slot → String
  | .leaf (.parameter name _ _) => if name.isEmpty then freshName (names ps) ps.length else name
  | _ => freshName (ctx.reserved ++ names ps) 0

variable {ctx : Context}

/-! ## Steps -/

/-- `Step ctx s site s'`: filling a slot leaves the parameters as they are, or it binds a value and
writes the placeholder. -/
inductive Step (ctx : Context) (s : Progress) : Site → Progress → Prop
  | idle {site : Site} {s' : Progress} (hconstant : site.1.boundConstant? ctx.catalog = none)
      (hparameter : site.1.boundParameter? = none) (hparameters : s'.parameters = s.parameters) :
      Step ctx s site s'
  | bind {slot : Slot} {p : Parameter} {fault : Option Fault}
      (hvalue : slot.boundConstant? ctx.catalog = some p.value ∨
        slot.boundParameter? = some p.value)
      (hname : p.name = slot.nameAfter ctx s.parameters) :
      Step ctx s (slot, [placeholder ctx.catalog p.name]) ⟨put p s.parameters, fault⟩

/-- Tagging a parameter keeps its name. -/
theorem name_tag (settings : Settings) (m : Mapping) (p : Parameter) :
    (p.tag settings m).name = p.name := by
  unfold Parameter.tag
  split <;> rfl

/-- A value that cannot be sent is a fault. -/
theorem bind_of_error {m : Mapping} {v : Value} {fault : Fault} (h : Wire.value m v = .error fault)
    (name : String) : bind ctx (.of name v) m = fail (fault.inside (.bindingParameter name)) := by
  have hconfigure : (Parameter.of name v).configure ctx.catalog.settings m = .error fault := by
    simp [Parameter.configure, Parameter.of, h, Except.map]
  rw [bind, hconfigure]
  rfl

/-- A value that cannot be sent leaves the parameters as they are. -/
theorem parameters_bind {m : Mapping} {v : Value} (h : (Wire.value m v).toOption = none)
    (name : String) (s : Progress) :
    ((bind ctx (.of name v) m).run s).2.parameters = s.parameters := by
  cases hvalue : Wire.value m v with
  | ok w => simp [hvalue, Except.toOption] at h
  | error fault =>
    rw [bind_of_error hvalue]
    rfl

/-- A value that can be sent is bound under the name of the parameter, or a generated one. -/
theorem run_bind {m : Mapping} {v w : Value} (h : (Wire.value m v).toOption = some w)
    (name : String) (s : Progress) :
    ∃ p : Parameter, p.value = w ∧
      p.name = (if name.isEmpty then freshName (names s.parameters) s.parameters.length else name) ∧
      (bind ctx (.of name v) m).run s =
        ([placeholder ctx.catalog p.name], ⟨put p s.parameters, s.fault⟩) := by
  cases hvalue : Wire.value m v with
  | error fault => simp [hvalue, Except.toOption] at h
  | ok w' =>
    obtain rfl : w' = w := by simpa [hvalue, Except.toOption] using h
    let sent := ((Parameter.of name v).tag ctx.catalog.settings m).withValue w'
    have hconfigure : (Parameter.of name v).configure ctx.catalog.settings m = .ok sent := by
      simp [Parameter.configure, Parameter.of, hvalue, Except.map, sent]
    have hname : sent.name = name := name_tag ..
    refine ⟨{ sent with name := (push s.parameters sent).1 }, rfl, ?_, ?_⟩
    · simp [push, hname]
    · rw [bind, hconfigure]
      rfl

/-- Writing a constant of a mapping leaves the parameters as they are or binds its value. -/
theorem step_typedConstant {v : Value} {m : Option Mapping} {m' : Mapping}
    (hm : constantMapping? ctx.catalog m v = some m') (s : Progress) :
    Step ctx s (.leaf (.constant v m), ((typedConstant ctx m' v).run s).1)
      ((typedConstant ctx m' v).run s).2 := by
  unfold typedConstant
  split
  next hinline =>
    refine .idle (by simp [Slot.boundConstant?, hinline]) rfl ?_
    split <;> rfl
  next hinline =>
    have hvalue : (Slot.leaf (.constant v m)).boundConstant? ctx.catalog =
        (Wire.value m' v).toOption := by simp [Slot.boundConstant?, hinline, hm]
    let name := freshName (ctx.reserved ++ names s.parameters) 0
    change Step ctx s (_, ((bind ctx (.of name v) m').run s).1)
      ((bind ctx (.of name v) m').run s).2
    cases hsent : (Wire.value m' v).toOption with
    | none => exact .idle (hvalue.trans hsent) rfl (parameters_bind hsent name s)
    | some w =>
      obtain ⟨p, rfl, hname, hrun⟩ := run_bind hsent name s
      rw [hrun]
      refine .bind (.inl (hvalue.trans hsent)) (hname.trans ?_)
      rw [if_neg (by simpa using freshName_ne_empty _ _)]
      rfl

/-- Writing a constant leaves the parameters as they are or binds its value. -/
theorem step_constant (v : Value) (m : Option Mapping) (s : Progress) :
    Step ctx s (.leaf (.constant v m), ((constant ctx m v).run s).1)
      ((constant ctx m v).run s).2 := by
  unfold constant
  split
  next m' => exact step_typedConstant rfl s
  next =>
    split
    next hnull => exact .idle (by simp [Slot.boundConstant?, constantMapping?, hnull]) rfl rfl
    next hnull =>
      split
      next m' hm => exact step_typedConstant (by simp [constantMapping?, hnull, hm]) s
      next hm => exact .idle (by simp [Slot.boundConstant?, constantMapping?, hnull, hm]) rfl rfl

/-- Writing a parameter leaves the parameters as they are or binds its value. -/
theorem step_parameter (name : String) (v : Value) (m : Mapping) (s : Progress) :
    Step ctx s (.leaf (.parameter name v m), ((bind ctx (.of name v) m).run s).1)
      ((bind ctx (.of name v) m).run s).2 := by
  cases hsent : (Wire.value m v).toOption with
  | none => exact .idle rfl hsent (parameters_bind hsent name s)
  | some w =>
    obtain ⟨p, rfl, hname, hrun⟩ := run_bind hsent name s
    rw [hrun]
    exact .bind (.inr hsent) hname

/-- Filling a slot is a step. -/
theorem step_emit {slot : Slot} (hleaf : ∀ e, slot.leaf? = some e → IsLeaf e) (s : Progress) :
    Step ctx s (slot, ((slot.emit ctx).run s).1) ((slot.emit ctx).run s).2 := by
  cases slot with
  | piece => exact .idle rfl rfl rfl
  | leaf e =>
    cases hleaf e rfl with
    | constant => exact step_constant _ _ s
    | parameter => exact step_parameter _ _ _ s
    | untypedArray => exact .idle rfl rfl rfl

/-! ## Runs -/

/-- `Run ctx s sites final`: steps in a row. -/
inductive Run (ctx : Context) : Progress → List Site → Progress → Prop
  | nil {s : Progress} : Run ctx s [] s
  | cons {s s' final : Progress} {site : Site} {rest : List Site} (hstep : Step ctx s site s')
      (hrest : Run ctx s' rest final) : Run ctx s (site :: rest) final

/-- Filling the slots of an expression is a run. -/
theorem run_fill {slots : List Slot} (h : ∀ e ∈ leavesOf slots, IsLeaf e) (s : Progress) :
    Run ctx s ((fill ctx slots).run s).1 ((fill ctx slots).run s).2 := by
  induction slots generalizing s with
  | nil => exact .nil
  | cons slot rest ih =>
    have hleaves : leavesOf (slot :: rest) = slot.leaf?.toList ++ leavesOf rest := by
      cases slot <;> rfl
    rw [hleaves] at h
    refine .cons (step_emit (fun e he => h e ?_) s) (ih (fun e he => h e ?_) _)
    · exact List.mem_append_left _ (Option.mem_toList.mpr he)
    · exact List.mem_append_right _ he

/-- Writing an expression is a run over its sites, whether it succeeds or not. -/
theorem run_sitesOf (c : Catalog) (e : Expr) (ps : List Parameter) :
    ∃ final, final.parameters = (write c e ps).2 ∧
      Run ⟨c, e.parameterNames⟩ ⟨ps, none⟩ (sitesOf c e ps) final := by
  refine ⟨_, ?_, run_fill (fun leaf hleaf => (of_mem_leavesOf hleaf).2) _⟩
  rw [parameters_write, lexemes_eq]
  rfl

/-- A name for a slot is free, or it is that of the parameter there. -/
theorem nameAfter_cases (ctx : Context) (slot : Slot) (ps : List Parameter) :
    slot.nameAfter ctx ps ∉ names ps ∨
      ∃ v m, slot = .leaf (.parameter (slot.nameAfter ctx ps) v m) := by
  have hfree : freshName (ctx.reserved ++ names ps) 0 ∉ names ps := fun h =>
    freshName_not_mem _ 0 (List.mem_append_right _ h)
  cases slot with
  | piece => exact Or.inl hfree
  | leaf e =>
    cases e with
    | parameter name v m =>
      rw [Slot.nameAfter]
      split
      · exact Or.inl (freshName_not_mem _ _)
      · exact Or.inr ⟨v, m, rfl⟩
    | _ => exact Or.inl hfree

/-- A name for a slot is not empty. -/
theorem nameAfter_ne_empty (ctx : Context) (slot : Slot) (ps : List Parameter) :
    slot.nameAfter ctx ps ≠ "" := by
  unfold Slot.nameAfter
  split
  · split
    next => exact freshName_ne_empty _ _
    next hname => simpa using hname
  · exact freshName_ne_empty _ _

variable {s final : Progress} {sites : List Site} {name : String}

/-- A name that is in use stays in use. -/
theorem Run.mem_names (h : Run ctx s sites final) (hname : name ∈ names s.parameters) :
    name ∈ names final.parameters := by
  induction h with
  | nil => exact hname
  | cons hstep _ ih =>
    refine ih ?_
    cases hstep with
    | idle _ _ hparameters => rwa [hparameters]
    | bind => exact mem_names_put.mpr (Or.inr hname)

/-- A name keeps the one value that it has when the parameters with this name carry no other. -/
theorem Run.values_eq (h : Run ctx s sites final) {w : Value}
    (hvalue : values s.parameters name = [w])
    (hsites : ∀ site ∈ sites, ∀ v m, site.1 = .leaf (.parameter name v m) →
      ∀ w', site.1.boundParameter? = some w' → w' = w) :
    values final.parameters name = [w] := by
  induction h with
  | nil => exact hvalue
  | @cons s s' final site rest hstep _ ih =>
    rw [List.forall_mem_cons] at hsites
    refine ih ?_ hsites.2
    cases hstep with
    | idle _ _ hparameters => rwa [hparameters]
    | @bind slot p _ hbound hname =>
      by_cases heq : name = p.name
      · subst heq
        rcases nameAfter_cases ctx slot s.parameters with hfree | ⟨v, m, hslot⟩
        · rw [← hname] at hfree
          simp [values_eq_nil hfree] at hvalue
        · rw [← hname] at hslot
          have hw : p.value = w := by
            refine hsites.1 v m hslot _ (hbound.resolve_left fun hconstant => ?_)
            simp [hslot, Slot.boundConstant?] at hconstant
          rw [values_put, hvalue, hw, List.tail_cons]
      · rwa [values_put_of_ne heq]

/-! ## Constants -/

/-- A slot with a constant has no parameter. -/
theorem boundParameter?_eq_none {c : Catalog} {slot : Slot} {w : Value}
    (h : slot.boundConstant? c = some w) : slot.boundParameter? = none := by
  unfold Slot.boundParameter?
  split
  · simp [Slot.boundConstant?] at h
  · rfl

/-- A constant is bound under a name that is free and reserved for no parameter. -/
theorem nameAfter_constant {slot : Slot} (ps : List Parameter) {w : Value}
    (h : slot.boundConstant? ctx.catalog = some w) :
    slot.nameAfter ctx ps ∉ ctx.reserved ∧ slot.nameAfter ctx ps ∉ names ps := by
  have hname : slot.nameAfter ctx ps = freshName (ctx.reserved ++ names ps) 0 := by
    unfold Slot.nameAfter
    split
    · simp [Slot.boundConstant?] at h
    · rfl
  rw [hname, ← not_or, ← List.mem_append]
  exact freshName_not_mem _ 0

/-- A constant has the one value under a name that was free, and that no parameter has. -/
theorem Step.constant {s' : Progress} {site : Site} (h : Step ctx s site s') {w : Value}
    (hw : site.1.boundConstant? ctx.catalog = some w) :
    ∃ n, site.2 = [placeholder ctx.catalog n] ∧ n ∉ ctx.reserved ∧ n ∉ names s.parameters ∧
      values s'.parameters n = [w] := by
  cases h with
  | idle hnone => simp [hw] at hnone
  | @bind slot p _ hbound hname =>
    obtain ⟨hreserved, hfree⟩ := nameAfter_constant s.parameters hw
    rw [← hname] at hreserved hfree
    have hvalue : slot.boundConstant? ctx.catalog = some p.value :=
      hbound.resolve_right (by simp [boundParameter?_eq_none hw])
    obtain rfl : p.value = w := Option.some.inj (hvalue.symm.trans hw)
    exact ⟨p.name, rfl, hreserved, hfree, values_put_of_not_mem hfree⟩

/-- A name with a value is in use. -/
theorem mem_names_of_values {ps : List Parameter} {w : Value} (h : values ps name = [w]) :
    name ∈ names ps := by
  by_contra hfree
  simp [values_eq_nil hfree] at h

/-- Every constant of a run has a name of its own and keeps its value there, when the names of the
parameters are reserved. -/
theorem Run.constants (h : Run ctx s sites final)
    (hreserved : ∀ site ∈ sites, ∀ n v m, site.1 = .leaf (.parameter n v m) → n ∈ ctx.reserved) :
    (∀ site ∈ sites, ∀ w, site.1.boundConstant? ctx.catalog = some w → ∃ n,
      site.2 = [placeholder ctx.catalog n] ∧ n ∉ ctx.reserved ∧ n ∉ names s.parameters ∧
        values final.parameters n = [w]) ∧
    sites.Pairwise fun a b => (a.1.boundConstant? ctx.catalog).isSome →
      (b.1.boundConstant? ctx.catalog).isSome → a.2 ≠ b.2 := by
  induction h with
  | nil => exact ⟨fun _ h => absurd h List.not_mem_nil, .nil⟩
  | @cons s s' final site rest hstep hrest ih =>
    rw [List.forall_mem_cons] at hreserved
    obtain ⟨hvalues, hpairwise⟩ := ih hreserved.2
    rw [List.forall_mem_cons, List.pairwise_cons]
    refine ⟨⟨fun w hw => ?_, fun other hother w hw => ?_⟩, fun other hother hsite hbound heq => ?_,
      hpairwise⟩
    · obtain ⟨n, hpieces, hnew, hfree, hn⟩ := hstep.constant hw
      refine ⟨n, hpieces, hnew, hfree, hrest.values_eq hn fun other hother v m hslot => ?_⟩
      exact absurd (hreserved.2 other hother n v m hslot) hnew
    · obtain ⟨n, hpieces, hnew, hfree, hn⟩ := hvalues other hother w hw
      have hkept : n ∈ names s.parameters → n ∈ names s'.parameters :=
        Run.mem_names (.cons hstep .nil)
      exact ⟨n, hpieces, hnew, mt hkept hfree, hn⟩
    · -- the name of the first constant is in use when the name of the second is generated
      obtain ⟨w, hw⟩ := Option.isSome_iff_exists.mp hsite
      obtain ⟨w', hw'⟩ := Option.isSome_iff_exists.mp hbound
      obtain ⟨n, hpieces, -, -, hn⟩ := hstep.constant hw
      obtain ⟨n', hpieces', -, hfree', -⟩ := hvalues other hother w' hw'
      rw [hpieces, hpieces', List.cons.injEq] at heq
      obtain rfl := placeholder_injective heq.1
      exact hfree' (mem_names_of_values hn)

/-- The names of the parameters among the leaves of an expression are its parameter names. -/
theorem mem_parameterNames {e : Expr} {n : String} {v : Value} {m : Mapping}
    (h : .parameter n v m ∈ e.nodes) : n ∈ e.parameterNames :=
  List.mem_filterMap.mpr ⟨_, h, rfl⟩

/-- The slots of sites are those that were filled. -/
theorem slots_fill (ctx : Context) (slots : List Slot) (s : Progress) :
    ((fill ctx slots).run s).1.map Prod.fst = slots := by
  induction slots generalizing s with
  | nil => rfl
  | cons slot rest ih => exact congrArg (slot :: ·) (ih _)

/-- The slots of an expression's sites are those of the expression. -/
theorem slots_sitesOf (c : Catalog) (e : Expr) (ps : List Parameter) :
    (sitesOf c e ps).map Prod.fst = slots e :=
  slots_fill ..

/-- The parameters at the sites of an expression are nodes of it. -/
theorem parameter_mem_nodes {c : Catalog} {e : Expr} {ps : List Parameter} {site : Site}
    (hsite : site ∈ sitesOf c e ps) {leaf : Expr} (hslot : site.1 = .leaf leaf) :
    leaf ∈ e.nodes := by
  have hmem : Slot.leaf leaf ∈ slots e := by
    rw [← slots_sitesOf c e ps, ← hslot]
    exact List.mem_map_of_mem hsite
  exact (of_mem_leavesOf (List.mem_filterMap.mpr ⟨_, hmem, rfl⟩)).1

/-- Constants that are bound never collide, whether writing succeeds or not: each is written as the
placeholder of a name that no other constant has, no parameter of the expression and none bound
before, and this name has just the value of the constant in the end. -/
theorem constants_bound_apart (c : Catalog) (e : Expr) (ps : List Parameter) :
    (sitesOf c e ps).map Prod.fst = slots e ∧ (lexemes c e ps).1 = piecesOf (sitesOf c e ps) ∧
    (∀ site ∈ sitesOf c e ps, ∀ w, site.1.boundConstant? c = some w → ∃ n,
      site.2 = [placeholder c n] ∧ n ∉ e.parameterNames ∧ n ∉ names ps ∧
        values (write c e ps).2 n = [w]) ∧
    (sitesOf c e ps).Pairwise fun a b =>
      (a.1.boundConstant? c).isSome → (b.1.boundConstant? c).isSome → a.2 ≠ b.2 := by
  obtain ⟨final, hfinal, hrun⟩ := run_sitesOf c e ps
  rw [← hfinal]
  exact ⟨slots_sitesOf c e ps, pieces_lexemes c e ps, hrun.constants fun site hsite n v m hslot =>
    mem_parameterNames (parameter_mem_nodes hsite hslot)⟩

/-- A constant avoids the name of a parameter that is written after it. -/
example : write ⟨{ Settings.default with inlineConstants := false }⟩
      (.binary (.constant (.i64 1) (some Builtin.int64.mapping)) .add
        (.parameter "p0" (.i64 2) Builtin.int64.mapping) none) [] =
    (.ok "@p1 + @p0",
      [⟨"p1", some .int64, none, none, .i64 1⟩, ⟨"p0", some .int64, none, none, .i64 2⟩]) := rfl

/-! ## Parameters -/

/-- The placeholder at a site is that of a name which has a value, and no other. -/
def RefersTo (c : Catalog) (final : List Parameter) (site : Site) (w : Value) : Prop :=
  ∃ n, site.2 = [placeholder c n] ∧ values final n = [w]

/-- A parameter without a name at the first site is not put over at the second: a parameter there
with the generated name binds the same value. -/
def KeepsGenerated (a b : Site) : Prop :=
  ∀ v m n v' m', a.1 = .leaf (.parameter "" v m) → b.1 = .leaf (.parameter n v' m') → n ≠ "" →
    a.2 = b.2 → a.1.boundParameter? = b.1.boundParameter?

/-- A site refers to one value at most. -/
theorem RefersTo.unique {c : Catalog} {ps : List Parameter} {a b : Site} {w w' : Value}
    (ha : RefersTo c ps a w) (hb : RefersTo c ps b w') (h : a.2 = b.2) : w = w' := by
  obtain ⟨n, hpieces, hn⟩ := ha
  obtain ⟨n', hpieces', hn'⟩ := hb
  rw [hpieces, hpieces', List.cons.injEq] at h
  obtain rfl := placeholder_injective h.1
  exact (List.cons.inj (hn.symm.trans hn')).1

/-- A parameter that is sent is bound and written under its name or a free one. -/
theorem Step.parameter {s' : Progress} {site : Site} (h : Step ctx s site s')
    (hle : ∀ n, (values s.parameters n).length ≤ 1) {w : Value}
    (hw : site.1.boundParameter? = some w) :
    ∃ n, site.2 = [placeholder ctx.catalog n] ∧ values s'.parameters n = [w] ∧
      n = site.1.nameAfter ctx s.parameters := by
  cases h with
  | idle _ hnone => simp [hw] at hnone
  | @bind slot p _ hbound hname =>
    have hvalue : slot.boundParameter? = some p.value :=
      hbound.resolve_left fun hconstant => by simp [boundParameter?_eq_none hconstant] at hw
    obtain rfl : p.value = w := Option.some.inj (hvalue.symm.trans hw)
    refine ⟨p.name, rfl, ?_, hname⟩
    have htail : (values s.parameters p.name).tail = [] :=
      List.eq_nil_of_length_eq_zero (by have := hle p.name; simp; omega)
    rw [values_put, htail]

/-- A list with one value under each name stays one. -/
theorem Step.length_values {s' : Progress} {site : Site} (h : Step ctx s site s')
    (hle : ∀ n, (values s.parameters n).length ≤ 1) (n : String) :
    (values s'.parameters n).length ≤ 1 := by
  cases h with
  | idle _ _ hparameters =>
    rw [hparameters]
    exact hle n
  | @bind slot p =>
    by_cases heq : n = p.name
    · have := hle p.name
      rw [heq, values_put, List.length_cons, List.length_tail]
      omega
    · rw [values_put_of_ne heq]
      exact hle n

/-- A parameter with a name is written as the placeholder of its name. -/
theorem Run.pieces_of_name {n : String} {v : Value} {m : Mapping} {site : Site}
    (h : Run ctx s sites final) (hle : ∀ n, (values s.parameters n).length ≤ 1)
    (hsite : site ∈ sites) (hslot : site.1 = .leaf (.parameter n v m)) (hn : n ≠ "") {w : Value}
    (hw : site.1.boundParameter? = some w) : site.2 = [placeholder ctx.catalog n] := by
  induction h with
  | nil => exact absurd hsite List.not_mem_nil
  | cons hstep _ ih =>
    rcases List.mem_cons.mp hsite with rfl | hsite
    · obtain ⟨n', hpieces, -, hname⟩ := hstep.parameter hle hw
      rw [hpieces, hname, hslot, Slot.nameAfter, if_neg (by simpa using hn)]
    · exact ih (hstep.length_values hle) hsite

/-- A slot whose parameter is sent has a parameter. -/
theorem exists_parameter {slot : Slot} {w : Value} (h : slot.boundParameter? = some w) :
    ∃ n v m, slot = .leaf (.parameter n v m) := by
  unfold Slot.boundParameter? at h
  split at h
  next n v m => exact ⟨n, v, m, rfl⟩
  next => cases h

/-- In a run over parameters that are alike when they have one name, every placeholder refers to
the value of its parameter if no generated name is put over. -/
theorem Run.refersTo (h : Run ctx s sites final)
    (hle : ∀ n, (values s.parameters n).length ≤ 1)
    (hsame : ∀ a ∈ sites, ∀ b ∈ sites, ∀ n v m v' m', n ≠ "" →
      a.1 = .leaf (.parameter n v m) → b.1 = .leaf (.parameter n v' m') →
        a.1.boundParameter? = b.1.boundParameter?)
    (hkeeps : sites.Pairwise KeepsGenerated) :
    ∀ site ∈ sites, ∀ w, site.1.boundParameter? = some w →
      RefersTo ctx.catalog final.parameters site w := by
  induction h with
  | nil => exact fun _ h => absurd h List.not_mem_nil
  | @cons s s' final site rest hstep hrest ih =>
    obtain ⟨hfirst, hkeeps⟩ := List.pairwise_cons.mp hkeeps
    have hle' := hstep.length_values hle
    rw [List.forall_mem_cons]
    constructor
    · intro w hw
      obtain ⟨n, hpieces, hn, hname⟩ := hstep.parameter hle hw
      refine ⟨n, hpieces, hrest.values_eq hn fun other hother v m hslot w' hw' => ?_⟩
      obtain ⟨given, v₀, m₀, hgiven⟩ := exists_parameter hw
      have hmem := List.mem_cons_of_mem site hother
      -- a later parameter with the name is put over, but it has the same value
      have hequal : site.1.boundParameter? = other.1.boundParameter? := by
        by_cases hempty : given = ""
        · subst hempty
          have hne : n ≠ "" := hname ▸ nameAfter_ne_empty ctx site.1 s.parameters
          have hpieces' := hrest.pieces_of_name hle' hother hslot hne hw'
          exact hfirst other hother v₀ m₀ n v m hgiven hslot hne (hpieces.trans hpieces'.symm)
        · rw [hgiven, Slot.nameAfter, if_neg (by simpa using hempty)] at hname
          subst hname
          exact hsame site (List.mem_cons_self ..) other hmem n v₀ m₀ v m hempty hgiven hslot
      rw [hw, hw'] at hequal
      exact (Option.some.inj hequal).symm
    · refine ih hle' (fun a ha b hb => ?_) hkeeps
      exact hsame a (List.mem_cons_of_mem _ ha) b (List.mem_cons_of_mem _ hb)

/-- Where every parameter is sent, every placeholder refers to the value of its parameter exactly
when no generated name is put over. -/
theorem Run.refersTo_iff (h : Run ctx s sites final)
    (hle : ∀ n, (values s.parameters n).length ≤ 1)
    (hsent : ∀ site ∈ sites, ∀ n v m, site.1 = .leaf (.parameter n v m) →
      ∃ w, site.1.boundParameter? = some w)
    (hsame : ∀ a ∈ sites, ∀ b ∈ sites, ∀ n v m v' m', n ≠ "" →
      a.1 = .leaf (.parameter n v m) → b.1 = .leaf (.parameter n v' m') →
        a.1.boundParameter? = b.1.boundParameter?) :
    (∀ site ∈ sites, ∀ w, site.1.boundParameter? = some w →
      RefersTo ctx.catalog final.parameters site w) ↔ sites.Pairwise KeepsGenerated := by
  refine ⟨fun hrefers => ?_, h.refersTo hle hsame⟩
  refine List.pairwise_of_forall_mem_list fun a ha b hb v m n v' m' hslot hslot' _ hpieces => ?_
  obtain ⟨w, hw⟩ := hsent a ha _ v m hslot
  obtain ⟨w', hw'⟩ := hsent b hb n v' m' hslot'
  rw [hw, hw', (hrefers a ha w hw).unique (hrefers b hb w' hw') hpieces]

/-! ## Writing without a fault -/

/-- Where no fault is left, every slot was filled without one. -/
theorem fault_fill {slots : List Slot} {s : Progress}
    (h : ((fill ctx slots).run s).2.fault = none) :
    s.fault = none ∧ ∀ e ∈ leavesOf slots, ∃ s', ((emit ctx e).run s').2.fault = none := by
  induction slots generalizing s with
  | nil => exact ⟨h, fun _ h => absurd h List.not_mem_nil⟩
  | cons slot rest ih =>
    obtain ⟨hslot, hrest⟩ := ih (s := ((slot.emit ctx).run s).2) h
    cases slot with
    | piece => exact ⟨hslot, hrest⟩
    | leaf e =>
      rw [leavesOf_leaf, List.forall_mem_cons]
      exact ⟨keepsFault_emit e s hslot, ⟨s, hslot⟩, hrest⟩

/-- A leaf that is written without a fault stands for a value, and a parameter is sent. -/
theorem standsForValue_of_fault {e : Expr} (hleaf : IsLeaf e) {s : Progress}
    (h : ((emit ctx e).run s).2.fault = none) : standsForValue e = true ∧
      ∀ n v m, e = .parameter n v m → ∃ w, Wire.value m v = .ok w := by
  cases hleaf with
  | constant => exact ⟨rfl, fun _ _ _ heq => nomatch heq⟩
  | untypedArray => exact absurd h (fault_fail _ s)
  | @parameter name value mapping =>
    refine ⟨rfl, fun n v m heq => ?_⟩
    obtain ⟨rfl, rfl, rfl⟩ := Expr.parameter.inj heq
    cases hvalue : Wire.value mapping value with
    | ok w => exact ⟨w, rfl⟩
    | error fault =>
      rw [emit, bind_of_error hvalue] at h
      exact absurd h (fault_fail _ s)

/-- Every parameter placeholder of a text refers to the value of its own parameter exactly when no
later parameter that has a generated name puts another value over that of a parameter without a
name. Here parameters with one name have the same value and mapping, and nothing was bound
before. -/
theorem placeholders_refer_iff {c : Catalog} {e : Expr} {text : String} {final : List Parameter}
    (hwrite : write c e [] = (.ok text, final))
    (hsame : ∀ n v m v' m', n ≠ "" → .parameter n v m ∈ e.nodes → .parameter n v' m' ∈ e.nodes →
      v = v' ∧ m = m') :
    piecesOf (sitesOf c e []) = (lexemes c e []).1 ∧
    (leavesOf ((sitesOf c e []).map Prod.fst)).filter Expr.isParameter =
      e.nodes.filter Expr.isParameter ∧
    ((∀ site ∈ sitesOf c e [], ∀ n v m, site.1 = .leaf (.parameter n v m) →
        ∃ w, Wire.value m v = .ok w ∧ RefersTo c final site w) ↔
      (sitesOf c e []).Pairwise KeepsGenerated) := by
  obtain ⟨progress, hfinal, hrun⟩ := run_sitesOf c e []
  rw [hwrite] at hfinal
  have hfault : ((fill ⟨c, e.parameterNames⟩ (slots e)).run ⟨[], none⟩).2.fault = none := by
    have hnone := fault_of_write hwrite
    rwa [lexemes_eq] at hnone
  have hleaf {leaf : Expr} (hmem : leaf ∈ leavesOf (slots e)) : standsForValue leaf = true ∧
      ∀ n v m, leaf = .parameter n v m → ∃ w, Wire.value m v = .ok w := by
    obtain ⟨s, hs⟩ := (fault_fill hfault).2 leaf hmem
    exact standsForValue_of_fault (of_mem_leavesOf hmem).2 hs
  have hsent {site : Site} (hsite : site ∈ sitesOf c e []) {n : String} {v : Value} {m : Mapping}
      (hslot : site.1 = .leaf (.parameter n v m)) : ∃ w, Wire.value m v = .ok w := by
    refine (hleaf (List.mem_filterMap.mpr ⟨site.1, ?_, ?_⟩)).2 n v m rfl
    · exact slots_sitesOf c e [] ▸ List.mem_map_of_mem hsite
    · rw [hslot]
      rfl
  have hbound {site : Site} {n : String} {v w : Value} {m : Mapping}
      (hslot : site.1 = .leaf (.parameter n v m)) (hw : Wire.value m v = .ok w) :
      site.1.boundParameter? = some w := by
    simp [hslot, Slot.boundParameter?, hw, Except.toOption]
  refine ⟨(pieces_lexemes c e []).symm, ?_, ?_⟩
  · rw [slots_sitesOf, leavesOf_slots fun leaf hmem => (hleaf hmem).1, List.filter_filter]
    refine List.filter_congr fun node _ => ?_
    cases node <;> rfl
  · rw [← hrun.refersTo_iff (fun _ => Nat.zero_le 1) ?_ ?_, hfinal]
    · constructor
      · intro h site hsite w hw
        obtain ⟨n, v, m, hslot⟩ := exists_parameter hw
        obtain ⟨w', hw', hrefers⟩ := h site hsite n v m hslot
        obtain rfl : w' = w := Option.some.inj ((hbound hslot hw').symm.trans hw)
        exact hrefers
      · intro h site hsite n v m hslot
        obtain ⟨w, hw⟩ := hsent hsite hslot
        exact ⟨w, hw, h site hsite w (hbound hslot hw)⟩
    · intro site hsite n v m hslot
      obtain ⟨w, hw⟩ := hsent hsite hslot
      exact ⟨w, hbound hslot hw⟩
    · intro a ha b hb n v m v' m' hn hslot hslot'
      obtain ⟨rfl, rfl⟩ := hsame n v m v' m' hn (parameter_mem_nodes ha hslot)
        (parameter_mem_nodes hb hslot')
      rw [hslot, hslot']

section Examples

/-- Two parameters under names of their own, or none. -/
def conjunction (first second : String) : Expr :=
  .binary (.parameter first (.bool true) Builtin.bool.mapping) .and
    (.parameter second (.bool false) Builtin.bool.mapping) none

/-- The parameters of a conjunction with different names are alike when they have one name. -/
theorem same_conjunction {first second : String} (h : first ≠ second) :
    ∀ n v m v' m', n ≠ "" → .parameter n v m ∈ (conjunction first second).nodes →
      .parameter n v' m' ∈ (conjunction first second).nodes → v = v' ∧ m = m' := by
  intro n v m v' m' _ hnode hnode'
  simp only [conjunction, Expr.nodes, List.cons_append, List.nil_append, List.mem_cons,
    Expr.parameter.injEq, reduceCtorEq, List.not_mem_nil, or_false] at hnode hnode'
  rcases hnode with ⟨rfl, rfl, rfl⟩ | ⟨rfl, rfl, rfl⟩
  · rcases hnode' with ⟨-, rfl, rfl⟩ | ⟨rfl, -⟩
    · exact ⟨rfl, rfl⟩
    · exact absurd rfl h
  · rcases hnode' with ⟨rfl, -⟩ | ⟨-, rfl, rfl⟩
    · exact absurd rfl h
    · exact ⟨rfl, rfl⟩

/-- A parameter without a name keeps its value beside a later one that has another name than the
generated one. -/
theorem placeholders_refer_iff_conjunction :
    ∃ final, write default (conjunction "" "p1") [] = (.ok "@p0 AND @p1", final) ∧
      (sitesOf default (conjunction "" "p1") []).Pairwise KeepsGenerated ∧
      ∀ site ∈ sitesOf default (conjunction "" "p1") [], ∀ n v m,
        site.1 = .leaf (.parameter n v m) →
          ∃ w, Wire.value m v = .ok w ∧ RefersTo default final site w := by
  have hwrite : write default (conjunction "" "p1") [] = (.ok "@p0 AND @p1",
      [⟨"p0", some .bool, none, none, .bool true⟩, ⟨"p1", some .bool, none, none, .bool false⟩]) :=
    rfl
  obtain ⟨-, -, hiff⟩ := placeholders_refer_iff hwrite (same_conjunction (by decide))
  have hkeeps : (sitesOf default (conjunction "" "p1") []).Pairwise KeepsGenerated := by
    refine .cons (fun b hb v m n v' m' _ hslot' _ hpieces => ?_)
      (.cons (fun b _ v m n v' m' hslot => ?_) (List.pairwise_singleton ..))
    · rcases List.mem_cons.mp hb with rfl | hb
      · cases hslot'
      · obtain rfl := List.mem_singleton.mp hb
        have hname := placeholder_injective (c := default) (List.cons.inj hpieces).1
        exact absurd hname (by decide)
    · cases hslot
  exact ⟨_, hwrite, hkeeps, hiff.mpr hkeeps⟩

/-- A parameter without a name loses its value to a later one that has the generated name. -/
theorem exists_not_refersTo :
    ∃ e final site v m w, write default e [] = (.ok "@p0 AND @p0", final) ∧
      (∀ n v m v' m', n ≠ "" → .parameter n v m ∈ e.nodes → .parameter n v' m' ∈ e.nodes →
        v = v' ∧ m = m') ∧
      site ∈ sitesOf default e [] ∧ site.1 = .leaf (.parameter "" v m) ∧
      Wire.value m v = .ok w ∧ ¬RefersTo default final site w := by
  have hwrite : write default (conjunction "" "p0") [] = (.ok "@p0 AND @p0",
      [⟨"p0", some .bool, none, none, .bool false⟩]) := rfl
  refine ⟨_, _, (.leaf (.parameter "" (.bool true) Builtin.bool.mapping), [placeholder default "p0"]),
    _, _, _, hwrite, same_conjunction (by decide), List.mem_cons_self .., rfl, rfl, ?_⟩
  rintro ⟨n, hpieces, hvalue⟩
  obtain rfl := placeholder_injective (List.cons.inj hpieces).1
  cases hvalue

end Examples

end TypedSql.Sql
