import TypedSql.Proofs.Expr.Positions

/-!
# Rebuilding passes through the nodes of an expression

Rebuilding an expression goes through the nodes in the order in which they are visited, and calls
the function once for each of them: on the node that stands there, with the answers for its parts in
the place of the parts. A function that answers with what it is given leaves the expression as it
is.
-/

namespace TypedSql.Expr

/-! ## One node -/

section Node

variable {m : Type → Type} [Monad m] [LawfulMonad m] (f : Expr → m Expr)

/-- Several expressions are rebuilt one after the other. -/
theorem transformAllM_eq_mapM (es : List Expr) : transformAllM f es = es.mapM (transformM f) := by
  induction es with
  | nil => rfl
  | cons first rest ih => rw [transformAllM, List.mapM_cons, ih]

/-- The parts of an expression are rebuilt one after the other, and then the function is called on
the node with these in the place of its parts. -/
theorem transformM_eq (e : Expr) : transformM f e =
    e.children.mapM (transformM f) >>= fun parts => f (e.withChildren parts) := by
  cases e <;> simp [transformM, transformAllM_eq_mapM, children, withChildren]

end Node

/-! ## Calls -/

/-- A call of a function on nodes, with its answer. -/
structure Call where
  argument : Expr
  answer : Expr

variable {σ : Type}

/-- A function with a state that also keeps a record of its calls. -/
def recorded (f : Expr → StateM σ Expr) (e : Expr) : StateM (List Call × σ) Expr :=
  fun (calls, s) =>
    let (answer, s') := (f e).run s
    (answer, calls ++ [⟨e, answer⟩], s')

/-- The call for the node at a position, when the calls for all nodes have their answers: it is on
the node with the answers for its parts in the place of the parts. -/
def callAt (answers : List Nat → Expr) (placed : List Nat × Expr) : Call :=
  ⟨placed.2.withChildren (placed.2.children.mapIdx fun i _ => answers (placed.1 ++ [i])),
    answers placed.1⟩

/-- A call is on an expression that has the answers for its parts, and is the node at the position in
everything else. -/
theorem argument_callAt (answers : List Nat → Expr) (placed : List Nat × Expr) :
    (callAt answers placed).argument.children =
        placed.2.children.mapIdx (fun i _ => answers (placed.1 ++ [i])) ∧
      (callAt answers placed).argument.withChildren placed.2.children = placed.2 :=
  ⟨children_withChildren List.length_mapIdx, withChildren_withChildren List.length_mapIdx⟩

/-- What is done for the first of several expressions is done before what is done for the others. -/
theorem run_mapM_cons {g : Expr → StateM σ Expr} {first answer : Expr} {rest answers : List Expr}
    {s s' s'' : σ} (hfirst : (g first).run s = (answer, s'))
    (hrest : (rest.mapM g).run s' = (answers, s'')) :
    ((first :: rest).mapM g).run s = (answer :: answers, s'') := by
  rw [List.mapM_cons, StateT.run_bind, hfirst]
  change (rest.mapM g >>= fun answers => pure (answer :: answers)).run s' = _
  rw [StateT.run_bind, hrest]
  rfl

/-- The answers for the nodes of an expression: one for the node itself, and those for the nodes of
each part. -/
def answersOver (answer : Expr) (parts : Nat → List Nat → Expr) : List Nat → Expr
  | [] => answer
  | i :: path => parts i path

/-- Rebuilding an expression calls the function for its nodes one after the other, whether the calls
are recorded or not, and the answer for the root is the result. -/
def CallsInOrder (f : Expr → StateM σ Expr) (e : Expr) : Prop :=
  ∀ calls s, ∃ answers s', (transformM f e).run s = (answers [], s') ∧
    (transformM (recorded f) e).run (calls, s) =
      (answers [], calls ++ e.placed.map (callAt answers), s')

/-- Several expressions are rebuilt by calls for the nodes of each, one expression after the
other. -/
theorem exists_answers_mapM {f : Expr → StateM σ Expr} {es : List Expr}
    (h : ∀ e ∈ es, CallsInOrder f e) (k : Nat) (calls : List Call) (s : σ) :
    ∃ (answers : Nat → List Nat → Expr) (s' : σ),
      (es.mapM (transformM f)).run s = ((es.zipIdx k).map fun part => answers part.2 [], s') ∧
      (es.mapM (transformM (recorded f))).run (calls, s) =
        ((es.zipIdx k).map fun part => answers part.2 [],
          calls ++ (es.zipIdx k).flatMap fun part => part.1.placed.map (callAt (answers part.2)),
          s') := by
  induction es generalizing k calls s with
  | nil => exact ⟨fun _ _ => default, s, rfl, by simp; rfl⟩
  | cons first rest ih =>
    obtain ⟨hfirst, hrest⟩ := List.forall_mem_cons.mp h
    obtain ⟨answers, s', hplain, hrecorded⟩ := hfirst calls s
    obtain ⟨others, s'', hplain', hrecorded'⟩ :=
      ih hrest (k + 1) (calls ++ first.placed.map (callAt answers)) s'
    -- the numbers of the other expressions are larger, so their answers stay as they are
    have hothers : ∀ part ∈ rest.zipIdx (k + 1),
        Function.update others k answers part.2 = others part.2 := fun part hpart =>
      Function.update_of_ne (Nat.ne_of_gt (List.le_snd_of_mem_zipIdx hpart)) _ _
    have hanswers : ((first :: rest).zipIdx k).map
        (fun part => Function.update others k answers part.2 []) =
          answers [] :: (rest.zipIdx (k + 1)).map fun part => others part.2 [] := by
      rw [List.zipIdx_cons, List.map_cons, Function.update_self]
      exact congrArg (_ :: ·) (List.map_congr_left fun part hpart => by rw [hothers part hpart])
    have hcalls : ((first :: rest).zipIdx k).flatMap
        (fun part => part.1.placed.map (callAt (Function.update others k answers part.2))) =
          first.placed.map (callAt answers) ++
            (rest.zipIdx (k + 1)).flatMap fun part => part.1.placed.map (callAt (others part.2)) := by
      rw [List.zipIdx_cons, List.flatMap_cons, Function.update_self]
      exact congrArg (_ ++ ·) (List.flatMap_congr fun part hpart => by rw [hothers part hpart])
    refine ⟨Function.update others k answers, s'', ?_, ?_⟩
    · rw [hanswers]
      exact run_mapM_cons hplain hplain'
    · rw [hanswers, hcalls, ← List.append_assoc]
      exact run_mapM_cons hrecorded hrecorded'

/-- The calls for an expression are those for its parts, and then the one for the node itself. -/
theorem map_callAt_placed (e answer : Expr) (parts : Nat → List Nat → Expr) :
    e.placed.map (callAt (answersOver answer parts)) =
      (e.children.zipIdx.flatMap fun part => part.1.placed.map (callAt (parts part.2))) ++
        [⟨e.withChildren (e.children.mapIdx fun i _ => parts i []), answer⟩] := by
  rw [placed_eq, List.map_append, List.map_flatMap]
  simp only [List.map_map]
  rfl

/-- The function is called for the nodes of each part in turn and then for the node itself. -/
theorem callsInOrder (f : Expr → StateM σ Expr) (e : Expr) : CallsInOrder f e := by
  induction e using induct_children with
  | node e ih =>
    intro calls s
    obtain ⟨parts, s', hplain, hrecorded⟩ := exists_answers_mapM ih 0 calls s
    have hparts : e.children.zipIdx.map (fun part => parts part.2 []) =
        e.children.mapIdx fun i _ => parts i [] := by
      rw [List.mapIdx_eq_zipIdx_map]
    rw [hparts] at hplain hrecorded
    cases hanswer : (f (e.withChildren (e.children.mapIdx fun i _ => parts i []))).run s' with
    | mk answer s'' =>
      refine ⟨answersOver answer parts, s'', ?_, ?_⟩
      · rw [transformM_eq, StateT.run_bind, hplain]
        exact hanswer
      · rw [transformM_eq, StateT.run_bind, hrecorded, map_callAt_placed, ← List.append_assoc]
        change recorded f _ (_, s') = _
        rw [recorded, hanswer]
        rfl

/-- A function that answers with what it is given is called on the nodes as they are visited. -/
theorem run_recorded_pure (e : Expr) (calls : List Call) (s : σ) :
    (transformM (recorded pure) e).run (calls, s) =
      (e, calls ++ e.nodes.map fun x => ⟨x, x⟩, s) := by
  induction e using induct_children generalizing calls with
  | node e ih =>
    have hparts (es : List Expr) (hes : ∀ x ∈ es, x ∈ e.children) (calls : List Call) :
        (es.mapM (transformM (recorded pure))).run (calls, s) =
          (es, calls ++ (es.flatMap nodes).map fun x => ⟨x, x⟩, s) := by
      induction es generalizing calls with
      | nil => simp; rfl
      | cons first rest ihrest =>
        obtain ⟨hfirst, hrest⟩ := List.forall_mem_cons.mp hes
        rw [List.flatMap_cons, List.map_append, ← List.append_assoc]
        exact run_mapM_cons (ih first hfirst calls) (ihrest hrest _)
    rw [transformM_eq, StateT.run_bind, hparts e.children (fun _ h => h), nodes_eq,
      List.map_append, ← List.append_assoc]
    change recorded pure (e.withChildren e.children) (_, s) = _
    rw [withChildren_children]
    rfl

/-! ## Visiting and rebuilding -/

/-- Rebuilding by a plain function rebuilds the parts and then the node over them. -/
theorem transform_eq (f : Expr → Expr) (e : Expr) :
    e.transform f = f (e.withChildren (e.children.map (transform f))) := by
  rw [transform, transformM_eq, Id.run_bind, List.idRun_mapM]
  rfl

/-- Rebuilding by the identity changes nothing. -/
theorem transform_id (e : Expr) : e.transform id = e := by
  induction e using induct_children with
  | node e ih => rw [transform_eq, List.map_congr_left ih, List.map_id', withChildren_children, id]

/-- The nodes that are visited are those at all positions, each once, children before parents and
siblings from left to right. Rebuilding by the identity gives the expression back and calls the
identity on these nodes in this order. Rebuilding by any function, which may have a state, calls it
once for each of these positions, in their order: on the node that stands there with the answers for
its parts in the place of the parts and everything else as it was. The answer for the root is the
result. -/
theorem transform_visits (e : Expr) :
    (PostOrder e e.placed ∧ e.nodes = e.placed.map Prod.snd) ∧
    (e.transform id = e ∧ ∀ (σ : Type) (s : σ), (transformM (recorded pure) e).run ([], s) =
      (e, e.nodes.map fun node => ⟨node, node⟩, s)) ∧
    (∀ answers, ∀ placed ∈ e.placed,
      (callAt answers placed).argument.children =
        placed.2.children.mapIdx (fun i _ => answers (placed.1 ++ [i])) ∧
      (callAt answers placed).argument.withChildren placed.2.children = placed.2) ∧
    ∀ (σ : Type) (f : Expr → StateM σ Expr) (s : σ), ∃ answers s',
      (transformM f e).run s = (answers [], s') ∧
      (transformM (recorded f) e).run ([], s) = (answers [], e.placed.map (callAt answers), s') :=
  ⟨⟨postOrder_placed e, nodes_eq_map_placed e⟩,
    ⟨transform_id e, fun _ s => run_recorded_pure e [] s⟩,
    fun answers placed _ => argument_callAt answers placed, fun _ f s => callsInOrder f e [] s⟩

/-- A sum is passed to the function after its operands, and with the answers for them. -/
example :
    let one : Expr := .constant (.i64 1) none
    let two : Expr := .constant (.i64 2) none
    let three : Expr := .constant (.i64 3) none
    (transformM (recorded fun e => pure (increment e)) (.binary one .add two none)).run ([], ()) =
      (.binary two .add three none,
        [⟨one, two⟩, ⟨two, three⟩, ⟨.binary two .add three none, .binary two .add three none⟩],
        ()) :=
  rfl

end TypedSql.Expr
