import Mathlib.Data.List.Basic
import TypedSql.Proofs.Expr.Subterm
import TypedSql.Proofs.Sql.Emission

/-!
# The layout of an expression

Only the leaves of an expression change anything while it is written: constants, parameters and
arrays without a mapping. All else is laid out beforehand, so that writing an expression comes down
to a row of slots, which are fixed pieces or leaves, filled from left to right. Where every array
has a mapping the leaves are the constants and parameters among the nodes, in their order.
-/

namespace TypedSql.Sql

/-- A place in the text of an expression. -/
inductive Slot where
  /-- A piece that is known beforehand. -/
  | piece (lexeme : Lexeme)
  /-- An expression without parts, which is written when its turn comes. -/
  | leaf (e : Expr)

namespace Slot

/-- The expression of a leaf. -/
def leaf? : Slot → Option Expr
  | .piece _ => none
  | .leaf e => some e

/-- Writes what belongs in a slot. -/
def emit (ctx : Context) : Slot → Emit
  | .piece lexeme => return [lexeme]
  | .leaf e => Sql.emit ctx e

/-- Slots in parentheses where asked. -/
def grouped (paren : Bool) (slots : List Slot) : List Slot :=
  if paren then .piece .openParen :: (slots ++ [.piece .closeParen]) else slots

end Slot

mutual

/-- The slots of an expression. -/
def slots (e : Expr) : List Slot :=
  match e with
  | .array elements _ _ mapping =>
    match mapping with
    | none => [.leaf e]
    | some m => .piece (.word m.literalStoreType.toList) :: .piece .openBracket ::
        (slotsOfAll elements ++ [.piece .closeBracket])
  | .binary l op r _ =>
    Slot.grouped (leftGrouped op l) (slots l) ++
      .piece (.binary op) :: Slot.grouped (rightGrouped op r) (slots r)
  | .cast x m =>
    .piece .openCast ::
      (slots x ++ [.piece .castType, .piece (.word m.storeType.toList), .piece .closeParen])
  | .column table name _ => [.piece (.word (columnText table name))]
  | .constant .. => [.leaf e]
  | .call name args _ =>
    .piece (.word name.toList) :: .piece .openParen :: (slotsOfAll args ++ [.piece .closeParen])
  | .inUnnest item arr _ =>
    Slot.grouped (itemGrouped item) (slots item) ++
      .piece .inUnnest :: (slots arr ++ [.piece .closeParen])
  | .index arr idx mode _ =>
    Slot.grouped (baseGrouped arr) (slots arr) ++
      .piece (.openIndex mode) :: (slots idx ++ [.piece .closeIndex])
  | .member x name _ =>
    Slot.grouped (baseGrouped x) (slots x) ++ [.piece (.field (Text.quotedName name.toList))]
  | .parameter .. => [.leaf e]
  | .unary op x _ => .piece (.unary op) :: Slot.grouped (unaryGrouped op x) (slots x)

/-- The slots of expressions separated by commas. -/
def slotsOfAll : List Expr → List Slot
  | [] => []
  | e :: rest => slots e ++ if rest.isEmpty then [] else .piece .comma :: slotsOfAll rest

end

/-- A slot with the pieces that were written in it. -/
abbrev Site := Slot × List Lexeme

/-- Fills slots from left to right. -/
def fill (ctx : Context) : List Slot → StateM Progress (List Site)
  | [] => return []
  | slot :: rest => do
    let pieces ← slot.emit ctx
    let others ← fill ctx rest
    return (slot, pieces) :: others

/-- The pieces of all sites in a row. -/
def piecesOf (sites : List Site) : List Lexeme := sites.flatMap Prod.snd

variable {ctx : Context}

/-! ## Writing is filling -/

/-- Slots in a row are filled one after the other. -/
theorem run_fill_append (as bs : List Slot) (s : Progress) :
    (fill ctx (as ++ bs)).run s =
      let (first, s') := (fill ctx as).run s
      let (second, final) := (fill ctx bs).run s'
      (first ++ second, final) := by
  induction as generalizing s with
  | nil => rfl
  | cons slot rest ih =>
    change ((slot, ((slot.emit ctx).run s).1) ::
        ((fill ctx (rest ++ bs)).run ((slot.emit ctx).run s).2).1,
      ((fill ctx (rest ++ bs)).run ((slot.emit ctx).run s).2).2) = _
    rw [ih]
    rfl

/-- What filling slots writes, and what it has changed. -/
def written (ctx : Context) (slots : List Slot) (s : Progress) : List Lexeme × Progress :=
  (piecesOf ((fill ctx slots).run s).1, ((fill ctx slots).run s).2)

/-- Slots in a row are written one after the other. -/
theorem written_append (as bs : List Slot) (s : Progress) :
    written ctx (as ++ bs) s =
      ((written ctx as s).1 ++ (written ctx bs (written ctx as s).2).1,
        (written ctx bs (written ctx as s).2).2) := by
  rw [written, run_fill_append]
  exact congrArg (·, _) (List.flatMap_append ..)

/-- A fixed piece is written as it is. -/
theorem written_piece (lexeme : Lexeme) (rest : List Slot) (s : Progress) :
    written ctx (.piece lexeme :: rest) s =
      (lexeme :: (written ctx rest s).1, (written ctx rest s).2) := rfl

/-- Grouped slots are written as grouped pieces. -/
theorem written_grouped (paren : Bool) (slots : List Slot) (s : Progress) :
    written ctx (Slot.grouped paren slots) s =
      (grouped paren (written ctx slots s).1, (written ctx slots s).2) := by
  cases paren with
  | false => rfl
  | true =>
    rw [Slot.grouped, if_pos rfl, written_piece, written_append]
    rfl

/-- A leaf is written as the expression that it is. -/
theorem written_leaf (e : Expr) (s : Progress) :
    written ctx [.leaf e] s = (emit ctx e).run s :=
  congrArg (·, _) (List.append_nil _)

/-- Expressions with commas are written by filling their slots when each of them is. -/
theorem run_emitAll {es : List Expr}
    (h : ∀ e ∈ es, ∀ s, (emit ctx e).run s = written ctx (slots e) s) (s : Progress) :
    (emitAll ctx es).run s = written ctx (slotsOfAll es) s := by
  induction es generalizing s with
  | nil => rfl
  | cons first rest ih =>
    have hrest := ih fun e he => h e (List.mem_cons_of_mem _ he)
    change (((emit ctx first).run s).1 ++ (if rest.isEmpty then [] else
        .comma :: ((emitAll ctx rest).run ((emit ctx first).run s).2).1),
      ((emitAll ctx rest).run ((emit ctx first).run s).2).2) = _
    rw [h first List.mem_cons_self, hrest, slotsOfAll, written_append]
    cases rest <;> rfl

/-- Writing an expression is filling its slots. -/
theorem run_emit (e : Expr) (s : Progress) : (emit ctx e).run s = written ctx (slots e) s := by
  induction e generalizing s with
  | array elements _ _ mapping ih =>
    cases mapping with
    | none => exact (written_leaf _ s).symm
    | some m =>
      change (_ :: .openBracket :: (((emitAll ctx elements).run s).1 ++ [.closeBracket]),
        ((emitAll ctx elements).run s).2) = _
      rw [run_emitAll ih, slots, written_piece, written_piece, written_append]
      rfl
  | binary l op r _ ihl ihr =>
    change (grouped (leftGrouped op l) ((emit ctx l).run s).1 ++ .binary op ::
        grouped (rightGrouped op r) ((emit ctx r).run ((emit ctx l).run s).2).1,
      ((emit ctx r).run ((emit ctx l).run s).2).2) = _
    rw [ihl, ihr, slots, written_append, written_grouped, written_piece, written_grouped]
  | cast x _ ih =>
    change (.openCast :: (((emit ctx x).run s).1 ++ [.castType, .word _, .closeParen]),
      ((emit ctx x).run s).2) = _
    rw [ih, slots, written_piece, written_append]
    rfl
  | column => rfl
  | constant v m =>
    rw [slots]
    exact (written_leaf _ s).symm
  | call _ args _ ih =>
    change (.word _ :: .openParen :: (((emitAll ctx args).run s).1 ++ [.closeParen]),
      ((emitAll ctx args).run s).2) = _
    rw [run_emitAll ih, slots, written_piece, written_piece, written_append]
    rfl
  | inUnnest item arr _ ihi iha =>
    change (grouped (itemGrouped item) ((emit ctx item).run s).1 ++ .inUnnest ::
        (((emit ctx arr).run ((emit ctx item).run s).2).1 ++ [.closeParen]),
      ((emit ctx arr).run ((emit ctx item).run s).2).2) = _
    rw [ihi, iha, slots, written_append, written_grouped, written_piece, written_append]
    rfl
  | index arr idx mode _ iha ihi =>
    change (grouped (baseGrouped arr) ((emit ctx arr).run s).1 ++ .openIndex mode ::
        (((emit ctx idx).run ((emit ctx arr).run s).2).1 ++ [.closeIndex]),
      ((emit ctx idx).run ((emit ctx arr).run s).2).2) = _
    rw [iha, ihi, slots, written_append, written_grouped, written_piece, written_append]
    rfl
  | member x _ _ ih =>
    change (grouped (baseGrouped x) ((emit ctx x).run s).1 ++ [.field _],
      ((emit ctx x).run s).2) = _
    rw [ih, slots, written_append, written_grouped]
    rfl
  | parameter name v m =>
    rw [slots]
    exact (written_leaf _ s).symm
  | unary op x _ ih =>
    change (.unary op :: grouped (unaryGrouped op x) ((emit ctx x).run s).1,
      ((emit ctx x).run s).2) = _
    rw [ih, slots, written_piece, written_grouped]

/-- The sites of an expression that is written from a list of parameters on. -/
def sitesOf (c : Catalog) (e : Expr) (parameters : List Parameter) : List Site :=
  ((fill ⟨c, e.parameterNames⟩ (slots e)).run ⟨parameters, none⟩).1

/-- What is written of an expression is what filling its slots writes. -/
theorem lexemes_eq (c : Catalog) (e : Expr) (parameters : List Parameter) :
    lexemes c e parameters = written ⟨c, e.parameterNames⟩ (slots e) ⟨parameters, none⟩ :=
  run_emit e _

/-- The pieces of an expression are those of its sites. -/
theorem pieces_lexemes (c : Catalog) (e : Expr) (parameters : List Parameter) :
    (lexemes c e parameters).1 = piecesOf (sitesOf c e parameters) := by
  rw [lexemes_eq]
  rfl

/-- The parameters after writing are those that are left, with and without a fault. -/
theorem parameters_write (c : Catalog) (e : Expr) (parameters : List Parameter) :
    (write c e parameters).2 = (lexemes c e parameters).2.parameters := by
  unfold write
  generalize lexemes c e parameters = run
  obtain ⟨pieces, progress⟩ := run
  cases h : progress.fault <;> simp [h]

/-! ## Leaves are nodes -/

/-- The leaves among slots. -/
def leavesOf (slots : List Slot) : List Expr := slots.filterMap Slot.leaf?

/-- Expressions that are not taken apart: constants, parameters and arrays without a mapping. -/
inductive IsLeaf : Expr → Prop
  | constant {v : Value} {m : Option Mapping} : IsLeaf (.constant v m)
  | parameter {name : String} {v : Value} {m : Mapping} : IsLeaf (.parameter name v m)
  | untypedArray {elements : List Expr} {elementType : HostType} {elementMapping : Option Mapping} :
      IsLeaf (.array elements elementType elementMapping none)

/-- Whether an expression stands for a value by itself. -/
def standsForValue (e : Expr) : Bool := e.isConstant || e.isParameter

@[simp]
theorem leavesOf_nil : leavesOf [] = [] := rfl

/-- Leaves in a row are those of each part. -/
@[simp]
theorem leavesOf_append (as bs : List Slot) : leavesOf (as ++ bs) = leavesOf as ++ leavesOf bs :=
  List.filterMap_append ..

/-- A fixed piece is no leaf. -/
@[simp]
theorem leavesOf_piece (lexeme : Lexeme) (rest : List Slot) :
    leavesOf (.piece lexeme :: rest) = leavesOf rest := rfl

/-- A leaf is one. -/
@[simp]
theorem leavesOf_leaf (e : Expr) (rest : List Slot) :
    leavesOf (.leaf e :: rest) = e :: leavesOf rest := rfl

/-- Grouping keeps the leaves. -/
@[simp]
theorem leavesOf_grouped (paren : Bool) (slots : List Slot) :
    leavesOf (Slot.grouped paren slots) = leavesOf slots := by
  cases paren <;> simp [Slot.grouped]

/-- The leaves of several expressions are those of each. -/
@[simp]
theorem leavesOf_slotsOfAll (es : List Expr) :
    leavesOf (slotsOfAll es) = es.flatMap fun e => leavesOf (slots e) := by
  induction es with
  | nil => rfl
  | cons first rest ih =>
    rw [slotsOfAll, leavesOf_append, List.flatMap_cons, ← ih]
    cases rest <;> rfl

attribute [local simp] slots Expr.nodes Expr.nodesOfAll_eq standsForValue Expr.isConstant
  Expr.isParameter

/-- The leaves of an expression are nodes of it that are not taken apart. -/
theorem of_mem_leavesOf {e leaf : Expr} (h : leaf ∈ leavesOf (slots e)) :
    leaf ∈ e.nodes ∧ IsLeaf leaf := by
  induction e with
  | array elements _ _ mapping ih =>
    cases mapping with
    | none =>
      obtain rfl : leaf = .array elements _ _ none := by simpa using h
      exact ⟨by simp, .untypedArray⟩
    | some m =>
      obtain ⟨x, hx, hleaf⟩ : ∃ x ∈ elements, leaf ∈ leavesOf (slots x) := by simpa using h
      obtain ⟨hnode, hkind⟩ := ih x hx hleaf
      exact ⟨by simpa using Or.inl ⟨x, hx, hnode⟩, hkind⟩
  | call _ args _ ih =>
    obtain ⟨x, hx, hleaf⟩ : ∃ x ∈ args, leaf ∈ leavesOf (slots x) := by simpa using h
    obtain ⟨hnode, hkind⟩ := ih x hx hleaf
    exact ⟨by simpa using Or.inl ⟨x, hx, hnode⟩, hkind⟩
  | binary _ _ _ _ ihl ihr | inUnnest _ _ _ ihl ihr | index _ _ _ _ ihl ihr =>
    rcases (by simpa using h : _ ∨ _) with h | h
    · exact (ihl h).imp_left fun hnode => by simpa using Or.inl hnode
    · exact (ihr h).imp_left fun hnode => by simpa using Or.inr (Or.inl hnode)
  | cast _ _ ih | member _ _ _ ih | unary _ _ _ ih =>
    exact (ih (by simpa using h)).imp_left fun hnode => by simpa using Or.inl hnode
  | column => simp at h
  | constant =>
    obtain rfl : leaf = .constant _ _ := by simpa using h
    exact ⟨by simp, .constant⟩
  | parameter =>
    obtain rfl : leaf = .parameter _ _ _ := by simpa using h
    exact ⟨by simp, .parameter⟩

/-- Where the leaves of each part are its nodes that stand for a value, they are those of all. -/
theorem flatMap_leavesOf {es : List Expr}
    (h : ∀ e ∈ es, leavesOf (slots e) = e.nodes.filter standsForValue) :
    (es.flatMap fun e => leavesOf (slots e)) = (es.flatMap Expr.nodes).filter standsForValue := by
  rw [List.filter_flatMap]
  exact List.flatMap_congr h

/-- Where every leaf stands for a value, the leaves are the nodes that do, in their order. -/
theorem leavesOf_slots {e : Expr} (h : ∀ leaf ∈ leavesOf (slots e), standsForValue leaf = true) :
    leavesOf (slots e) = e.nodes.filter standsForValue := by
  induction e with
  | array elements _ _ mapping ih =>
    cases mapping with
    | none => simp at h
    | some m =>
      have hparts := flatMap_leavesOf fun x hx =>
        ih x hx fun leaf hleaf => h leaf (by simpa using ⟨x, hx, hleaf⟩)
      simp [hparts]
  | call _ args _ ih =>
    have hparts := flatMap_leavesOf fun x hx =>
      ih x hx fun leaf hleaf => h leaf (by simpa using ⟨x, hx, hleaf⟩)
    simp [hparts]
  | binary _ _ _ _ ihl ihr | inUnnest _ _ _ ihl ihr | index _ _ _ _ ihl ihr =>
    have hl := ihl fun leaf hleaf => h leaf (by simp [hleaf])
    have hr := ihr fun leaf hleaf => h leaf (by simp [hleaf])
    simp [hl, hr]
  | cast _ _ ih | member _ _ _ ih | unary _ _ _ ih =>
    have hx := ih fun leaf hleaf => h leaf (by simpa using hleaf)
    simp [hx]
  | column => rfl
  | constant | parameter => rfl

end TypedSql.Sql
