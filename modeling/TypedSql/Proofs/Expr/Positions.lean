import Mathlib.Data.List.Basic
import TypedSql.Proofs.Expr.Subterm

/-!
# Positions in an expression

An expression is a node over its parts. A position says which part to go to on each level, from the
root down, so that equal subtrees in different places are told apart. The nodes are walked through
in the order of their positions: what lies inside a part before the part, and one part with all that
lies inside before the next.
-/

namespace TypedSql.Expr

/-! ## Parts -/

/-- The parts of an expression, from left to right. -/
def children : Expr → List Expr
  | .array elements _ _ _ => elements
  | .binary l _ r _ => [l, r]
  | .cast x _ | .member x _ _ | .unary _ x _ => [x]
  | .column .. | .constant .. | .parameter .. => []
  | .call _ args _ => args
  | .inUnnest item arr _ => [item, arr]
  | .index arr idx _ _ => [arr, idx]

/-- An expression with other parts in the place of its own, as many as it has. -/
def withChildren : Expr → List Expr → Expr
  | .array _ elementType elementMapping mapping, es => .array es elementType elementMapping mapping
  | .binary _ op _ mapping, [l, r] => .binary l op r mapping
  | .cast _ mapping, [x] => .cast x mapping
  | .call name _ mapping, args => .call name args mapping
  | .inUnnest _ _ mapping, [item, arr] => .inUnnest item arr mapping
  | .index _ _ mode mapping, [arr, idx] => .index arr idx mode mapping
  | .member _ field mapping, [x] => .member x field mapping
  | .unary op _ mapping, [x] => .unary op x mapping
  | e, _ => e

/-- With its own parts an expression is the same. -/
theorem withChildren_children (e : Expr) : e.withChildren e.children = e := by
  cases e <;> rfl

/-- The parts that are put in the place of others are the parts. -/
theorem children_withChildren {e : Expr} {es : List Expr} (h : es.length = e.children.length) :
    (e.withChildren es).children = es := by
  cases e with
  | array | call => rfl
  | column | constant | parameter => exact (List.length_eq_zero_iff.mp h).symm
  | cast | member | unary =>
    obtain ⟨x, rfl⟩ := List.length_eq_one_iff.mp h
    rfl
  | binary | inUnnest | index =>
    obtain ⟨x, y, rfl⟩ := List.length_eq_two.mp h
    rfl

/-- Other parts change nothing else: with its own parts again an expression is the same. -/
theorem withChildren_withChildren {e : Expr} {es : List Expr}
    (h : es.length = e.children.length) : (e.withChildren es).withChildren e.children = e := by
  cases e with
  | array | call | column | constant | parameter => rfl
  | cast | member | unary =>
    obtain ⟨x, rfl⟩ := List.length_eq_one_iff.mp h
    rfl
  | binary | inUnnest | index =>
    obtain ⟨x, y, rfl⟩ := List.length_eq_two.mp h
    rfl

/-- Parts are smaller than the whole. -/
theorem size_lt_of_mem_children {e x : Expr} (h : x ∈ e.children) : x.size < e.size := by
  cases e with
  | array | call => exact Nat.lt_succ_of_le (size_le_sizeAll h)
  | column | constant | parameter => exact absurd h List.not_mem_nil
  | cast | member | unary =>
    obtain rfl := List.mem_singleton.mp h
    exact Nat.lt_succ_self _
  | binary | inUnnest | index =>
    simp only [children, List.mem_cons, List.not_mem_nil, or_false] at h
    rcases h with rfl | rfl
    · exact Nat.lt_succ_of_le (Nat.le_add_right ..)
    · exact Nat.lt_succ_of_le (Nat.le_add_left ..)

/-- Induction over expressions by their parts, whatever the node is. -/
theorem induct_children {motive : Expr → Prop}
    (node : ∀ e, (∀ x ∈ e.children, motive x) → motive e) (e : Expr) : motive e := by
  induction hn : e.size using Nat.strongRecOn generalizing e with
  | ind n ih =>
    subst hn
    exact node e fun x hx => ih _ (size_lt_of_mem_children hx) x rfl

/-- The nodes of an expression are those of its parts, one part after the other, and itself. -/
theorem nodes_eq (e : Expr) : e.nodes = e.children.flatMap nodes ++ [e] := by
  cases e <;> simp [nodes, children, nodesOfAll_eq]

/-! ## Positions -/

/-- The subtree at a position, which counts the parts to pass over on each level. -/
def at? (e : Expr) : List Nat → Option Expr
  | [] => some e
  | i :: path => e.children[i]?.bind fun part => part.at? path

/-- A position in a part is one in the whole that goes to the part first. -/
def under (i : Nat) (placed : List Nat × Expr) : List Nat × Expr := (i :: placed.1, placed.2)

/-- The positions of an expression with the nodes that stand there, in the order in which they are
walked through. -/
def placed (e : Expr) : List (List Nat × Expr) :=
  (e.children.attach.zipIdx.flatMap fun part => (placed part.1.1).map (under part.2)) ++ [([], e)]
termination_by e.size
decreasing_by exact size_lt_of_mem_children part.1.2

/-- The placed nodes of an expression are those of its parts, and itself. -/
theorem placed_eq (e : Expr) : e.placed =
    (e.children.zipIdx.flatMap fun part => part.1.placed.map (under part.2)) ++ [([], e)] := by
  have hattach : e.children.zipIdx = e.children.attach.zipIdx.map (Prod.map Subtype.val id) := by
    rw [List.map_zipIdx, List.attach_map_subtype_val]
  rw [hattach, List.flatMap_map, placed]
  rfl

/-- The order of positions: a node comes after all that lies inside it, and what a part is or has
inside comes before what a later part is or has inside. -/
inductive Precedes : List Nat → List Nat → Prop
  | inside (path : List Nat) (i : Nat) (rest : List Nat) : Precedes (path ++ i :: rest) path
  | beside (path : List Nat) {i j : Nat} (h : i < j) (rest rest' : List Nat) :
      Precedes (path ++ i :: rest) (path ++ j :: rest')

namespace Precedes

variable {p q : List Nat}

/-- Positions in one part keep their order. -/
theorem cons (h : Precedes p q) (i : Nat) : Precedes (i :: p) (i :: q) := by
  cases h with
  | inside _ j rest => exact .inside (i :: q) j rest
  | beside path h rest rest' => exact .beside (i :: path) h rest rest'

/-- No position comes before itself. -/
theorem ne (h : Precedes p q) : p ≠ q := by
  cases h with
  | inside path i rest => simp
  | beside path h rest rest' => simp [Nat.ne_of_lt h]

end Precedes

/-- A list has the nodes of an expression at all positions, each once, in the order of positions. -/
structure PostOrder (e : Expr) (steps : List (List Nat × Expr)) : Prop where
  mem_iff : ∀ path node, (path, node) ∈ steps ↔ e.at? path = some node
  once : (steps.map Prod.fst).Nodup
  ordered : (steps.map Prod.fst).Pairwise Precedes

/-- The nodes that are placed in an expression are those at its positions. -/
theorem mem_placed_iff (e : Expr) (path : List Nat) (node : Expr) :
    (path, node) ∈ e.placed ↔ e.at? path = some node := by
  induction e using induct_children generalizing path with
  | node e ih =>
    have hpart (x : Expr) (i : Nat) (hx : e.children[i]? = some x) (path : List Nat) :
        (path, node) ∈ x.placed ↔ x.at? path = some node :=
      ih x (List.mem_of_getElem? hx) path
    rw [placed_eq, List.mem_append, List.mem_flatMap, List.mem_singleton]
    cases path with
    | nil =>
      rw [at?]
      simp [under, eq_comm]
    | cons i path =>
      rw [at?, Option.bind_eq_some_iff]
      constructor
      · rintro (⟨⟨x, j⟩, hx, hmem⟩ | hroot)
        · obtain ⟨⟨_, _⟩, hplaced, hunder⟩ := List.mem_map.mp hmem
          cases hunder
          have hx := List.mem_zipIdx_iff_getElem?.mp hx
          exact ⟨x, hx, (hpart x j hx _).mp hplaced⟩
        · cases hroot
      · rintro ⟨x, hx, hat⟩
        exact .inl ⟨(x, i), List.mem_zipIdx_iff_getElem?.mpr hx,
          List.mem_map.mpr ⟨(path, node), (hpart x i hx path).mpr hat, rfl⟩⟩

/-- Numbered items stand in the order of their numbers. -/
theorem pairwise_zipIdx {α : Type} (xs : List α) (k : Nat) :
    (xs.zipIdx k).Pairwise fun x y => x.2 < y.2 := by
  induction xs generalizing k with
  | nil => exact .nil
  | cons x rest ih =>
    exact List.pairwise_cons.mpr ⟨fun y hy => List.le_snd_of_mem_zipIdx hy, ih (k + 1)⟩

/-- The nodes of an expression are placed in the order of their positions. -/
theorem pairwise_placed (e : Expr) : e.placed.Pairwise fun x y => Precedes x.1 y.1 := by
  induction e using induct_children with
  | node e ih =>
    rw [placed_eq, List.pairwise_append, List.pairwise_flatMap]
    refine ⟨⟨?_, ?_⟩, List.pairwise_singleton .., ?_⟩
    · -- inside one part
      rintro ⟨x, i⟩ hx
      have hx : x ∈ e.children := List.mem_of_getElem? (List.mem_zipIdx_iff_getElem?.mp hx)
      exact List.pairwise_map.mpr ((ih x hx).imp fun h => h.cons i)
    · -- from one part to a later one
      refine (pairwise_zipIdx e.children 0).imp fun hlt x hx y hy => ?_
      obtain ⟨x, -, rfl⟩ := List.mem_map.mp hx
      obtain ⟨y, -, rfl⟩ := List.mem_map.mp hy
      exact .beside [] hlt x.1 y.1
    · -- from the parts to the node itself
      intro x hx y hy
      obtain ⟨part, -, hx⟩ := List.mem_flatMap.mp hx
      obtain ⟨x, -, rfl⟩ := List.mem_map.mp hx
      obtain rfl := List.mem_singleton.mp hy
      exact .inside [] part.2 x.1

/-- The placed nodes of an expression are its nodes at all positions, in their order. -/
theorem postOrder_placed (e : Expr) : PostOrder e e.placed where
  mem_iff := mem_placed_iff e
  once := List.pairwise_map.mpr ((pairwise_placed e).imp Precedes.ne)
  ordered := List.pairwise_map.mpr (pairwise_placed e)

/-- The nodes are walked through in the order of their positions. -/
theorem nodes_eq_map_placed (e : Expr) : e.nodes = e.placed.map Prod.snd := by
  induction e using induct_children with
  | node e ih =>
    have hparts : e.children.flatMap nodes =
        e.children.zipIdx.flatMap fun part => (part.1.placed.map (under part.2)).map Prod.snd := by
      conv_lhs => rw [← List.zipIdx_map_fst 0 e.children, List.flatMap_map]
      refine List.flatMap_congr ?_
      rintro ⟨x, i⟩ hx
      have hx : x ∈ e.children := List.mem_of_getElem? (List.mem_zipIdx_iff_getElem?.mp hx)
      rw [List.map_map, ih x hx]
      rfl
    rw [nodes_eq, placed_eq, List.map_append, List.map_flatMap, hparts]
    rfl

end TypedSql.Expr
