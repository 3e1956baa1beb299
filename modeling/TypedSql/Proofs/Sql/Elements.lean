import Mathlib.Data.Option.Basic
import TypedSql.Operation.Expression
import TypedSql.Proofs.Catalog.Coverage
import TypedSql.Proofs.Catalog.Lookup
import TypedSql.Proofs.Expr.Typing
import TypedSql.Proofs.Sql.Layout

/-!
# Arrays of constants

Constant elements can be written in two ways: as one constant list, by the literal of the list, or
as an array of constants that each take the mapping of the elements, node by node. Where constants
are inlined both ways yield the same text: what a step of writing does is said by the text that it
yields, and both ways are steps for the text of the list's literal.
-/

namespace TypedSql

/-- The text of pieces in a row is made of theirs. -/
theorem Lexeme.textOfAll_append (as bs : List Lexeme) :
    textOfAll (as ++ bs) = textOfAll as ++ textOfAll bs :=
  List.flatMap_append

/-- Items have results when each of them has one, at whatever place the first of them stands. -/
theorem Literal.toOption_eachAt {α β : Type} (f : α → Result β) (index : Nat) (items : List α) :
    (eachAt f index items).toOption = items.mapM fun item => (f item).toOption := by
  induction items generalizing index with
  | nil => rfl
  | cons first rest ih =>
    rw [List.mapM_cons, ← ih (index + 1), eachAt]
    cases f first with
    | error => rfl
    | ok => cases eachAt f (index + 1) rest <;> rfl

namespace Sql

open StoreType

variable {ctx : Context}

/-! ## Steps that yield a text -/

/-- A step of writing yields a text, or records a fault when there is none; it binds no
parameters. -/
structure Yields (step : Emit) (text : Option (List Char)) : Prop where
  parameters (s : Progress) : (step.run s).2.parameters = s.parameters
  fault_iff (s : Progress) : (step.run s).2.fault = none ↔ s.fault = none ∧ text.isSome = true
  pieces (s : Progress) (chars : List Char) :
    text = some chars → Lexeme.textOfAll (step.run s).1 = chars

/-- Writing fixed pieces yields their text. -/
theorem yields_pure {pieces : List Lexeme} {chars : List Char}
    (h : Lexeme.textOfAll pieces = chars) : Yields (pure pieces) (some chars) where
  parameters _ := rfl
  fault_iff _ := (and_iff_left rfl).symm
  pieces _ _ hchars := h.trans (Option.some.inj hchars)

/-- Recording a fault yields no text. -/
theorem yields_fail (fault : Fault) : Yields (fail fault) none where
  parameters _ := rfl
  fault_iff s := by
    have hleft : s.fault.or (some fault) ≠ none := by simp
    exact iff_of_false hleft fun h => Bool.false_ne_true h.2
  pieces _ chars h := absurd h.symm (Option.some_ne_none chars)

/-- Two steps in turn yield their texts, with what stands between them. -/
theorem Yields.seq {a b : Emit} {s t : Option (List Char)} (ha : Yields a s) (hb : Yields b t)
    (between : List Lexeme) :
    Yields (do let x ← a; let y ← b; return x ++ (between ++ y))
      (s.bind fun x => t.map fun y => x ++ (Lexeme.textOfAll between ++ y)) where
  parameters p := (hb.parameters _).trans (ha.parameters p)
  fault_iff p := by
    have hsome : (s.bind fun x => t.map fun y => x ++ (Lexeme.textOfAll between ++ y)).isSome =
        (s.isSome && t.isSome) := by
      cases s <;> cases t <;> rfl
    rw [hsome, Bool.and_eq_true, ← and_assoc, ← ha.fault_iff p]
    exact hb.fault_iff (a.run p).2
  pieces p chars h := by
    obtain ⟨x, hx, h⟩ := Option.bind_eq_some_iff.mp h
    obtain ⟨y, hy, rfl⟩ := Option.map_eq_some_iff.mp h
    rw [← ha.pieces p x hx, ← hb.pieces (a.run p).2 y hy, ← Lexeme.textOfAll_append,
      ← Lexeme.textOfAll_append]
    rfl

/-- A step yields its text with what stands around it. -/
theorem Yields.surround {a : Emit} {s : Option (List Char)} (ha : Yields a s)
    (before after : List Lexeme) :
    Yields (do let x ← a; return before ++ (x ++ after))
      (s.map fun x => Lexeme.textOfAll before ++ (x ++ Lexeme.textOfAll after)) where
  parameters p := ha.parameters p
  fault_iff p := by
    rw [Option.isSome_map]
    exact ha.fault_iff p
  pieces p chars h := by
    obtain ⟨x, hx, rfl⟩ := Option.map_eq_some_iff.mp h
    rw [← ha.pieces p x hx, ← Lexeme.textOfAll_append, ← Lexeme.textOfAll_append]
    rfl

/-- What an expression yields is what is written for it, and no parameters are added. -/
theorem write_of_yields {c : Catalog} {e : Expr} {text : Option (List Char)}
    (h : Yields (emit ⟨c, e.parameterNames⟩ e) text) (ps : List Parameter) :
    (write c e ps).1.toOption = text.map String.ofList ∧ (write c e ps).2 = ps := by
  refine ⟨?_, (parameters_write c e ps).trans (h.parameters _)⟩
  have hfault : (lexemes c e ps).2.fault = none ↔ none = none ∧ text.isSome = true :=
    h.fault_iff ⟨ps, none⟩
  have hpieces : ∀ chars, text = some chars → Lexeme.textOfAll (lexemes c e ps).1 = chars :=
    h.pieces ⟨ps, none⟩
  unfold write
  generalize lexemes c e ps = run at hfault hpieces
  obtain ⟨pieces, parameters, fault⟩ := run
  cases text with
  | none =>
    cases fault with
    | none => simp at hfault
    | some fault => rfl
  | some chars =>
    obtain rfl : fault = none := hfault.mpr ⟨rfl, rfl⟩
    rw [← hpieces chars rfl]
    rfl

/-! ## Constants -/

/-- An inlined constant of a mapping yields its literal. -/
theorem yields_typedConstant (hinline : ctx.catalog.settings.inlineConstants = true) (m : Mapping)
    (v : Value) : Yields (typedConstant ctx m v) (Literal.literal m v).toOption := by
  rw [typedConstant, if_pos hinline]
  cases Literal.literal m v with
  | error fault => exact yields_fail fault
  | ok text => exact yields_pure (List.append_nil text)

/-- The literals of values with commas in between, if each value has one. -/
def literals? (m : Mapping) (vs : List Value) : Option (List Char) :=
  (vs.mapM fun v => (Literal.literal m v).toOption).map commaSeparated

/-- Two literals in a row have a comma in between. -/
theorem literals?_cons_cons (m : Mapping) (v v' : Value) (rest : List Value) :
    literals? m (v :: v' :: rest) = (Literal.literal m v).toOption.bind fun first =>
      (literals? m (v' :: rest)).map fun others => first ++ (", ".toList ++ others) := by
  rw [literals?, literals?, List.mapM_cons]
  cases (Literal.literal m v).toOption with
  | none => rfl
  | some first =>
    rw [List.mapM_cons]
    cases (Literal.literal m v').toOption with
    | none => rfl
    | some second =>
      cases rest.mapM fun v => (Literal.literal m v).toOption with
      | none => rfl
      | some others => simp [commaSeparated, List.intercalate]

/-- Constants of one mapping yield their literals with commas in between. -/
theorem yields_emitAll (hinline : ctx.catalog.settings.inlineConstants = true) (m : Mapping)
    (vs : List Value) :
    Yields (emitAll ctx (vs.map fun v => .constant v (some m))) (literals? m vs) := by
  induction vs with
  | nil => exact yields_pure rfl
  | cons v rest ih =>
    have hfirst := yields_typedConstant hinline m v
    -- a comma is written only when another constant follows
    cases rest with
    | nil =>
      have hone : literals? m [v] = (Literal.literal m v).toOption := by
        cases h : (Literal.literal m v).toOption <;> simp [literals?, h, commaSeparated]
      rw [hone]
      simpa [emitAll, emit, constant] using hfirst
    | cons v' rest =>
      rw [literals?_cons_cons]
      exact hfirst.seq ih [.comma]

/-! ## Lists of constants -/

/-- The mapping of a list type is that of an array, which stands for itself when it is stored. -/
theorem exists_array_of_resolveType {c : Catalog} {type : HostType} {m : Mapping}
    (h : c.resolveType (.listOf type) = some m) :
    ∃ element, m = .array element ⟨type, .list⟩ c.settings.materialization := by
  have hbytes : (HostType.listOf type).isByteSequence = false := by
    simp [HostType.isByteSequence, HostType.listOf, HostType.arrayOf]
  have hresolve := (Catalog.resolveKey_listType (c := c) hbytes).symm.trans h
  obtain ⟨element, -, hm⟩ := Option.bind_eq_some_iff.mp hresolve
  exact ⟨element, Catalog.arrayMapping?_some hm⟩

/-- The text of an array literal, around that of its elements. -/
def bracketed (m : Mapping) (elements : List Char) : List Char :=
  m.literalStoreType.toList ++ '[' :: (elements ++ [']'])

variable {type : HostType} {element : Mapping} {convention : Shape}

/-- The literal of a list holds the literals of its items. -/
theorem toOption_literal_list (vs : List Value) :
    (Literal.literal (.array element ⟨type, .list⟩ convention) (.list vs)).toOption =
      (literals? element vs).map (bracketed (.array element ⟨type, .list⟩ convention)) := by
  have hitems := Literal.toOption_eachAt (Literal.literal element) 0 vs
  rw [literals?, ← hitems, Option.map_map]
  change Except.toOption (Except.map _ (Literal.eachAt (Literal.literal element) 0 vs)) = _
  cases Literal.eachAt (Literal.literal element) 0 vs <;> rfl

/-- A constant list yields the text of the array. -/
theorem yields_constantList (hinline : ctx.catalog.settings.inlineConstants = true)
    (vs : List Value) :
    Yields (emit ctx (.typedConstant (.list vs) (.array element ⟨type, .list⟩ convention)))
      ((literals? element vs).map (bracketed (.array element ⟨type, .list⟩ convention))) := by
  rw [← toOption_literal_list]
  exact yields_typedConstant hinline _ _

/-- An array of constants yields the text of the array. -/
theorem yields_array (hinline : ctx.catalog.settings.inlineConstants = true) (m : Mapping)
    (vs : List Value) :
    Yields (emit ctx (.array (vs.map fun v => .constant v (some element)) type (some element)
        (some m))) ((literals? element vs).map (bracketed m)) := by
  have htext : bracketed m = fun elements =>
      Lexeme.textOfAll [.word m.literalStoreType.toList, .openBracket] ++
        (elements ++ Lexeme.textOfAll [.closeBracket]) :=
    funext fun elements => (List.append_assoc _ ['['] (elements ++ [']'])).symm
  rw [htext]
  exact (yields_emitAll hinline element vs).surround
    [.word m.literalStoreType.toList, .openBracket] [.closeBracket]

/-- Constants make one constant list of the default mapping of their list type. -/
theorem fromElements_constants (c : Catalog) (type : HostType) (vs : List Value)
    (receiver : Option Expr) :
    (SequenceOp.fromElements type).toExpr? c receiver (vs.map fun v => .constant v none) =
      (c.resolveType (.listOf type)).map (Expr.typedConstant (.list vs)) := by
  have hconstant : (vs.map fun v => Expr.constant v none).all Expr.isConstant = true := by
    simp [Expr.isConstant]
  have hvalues : (vs.map fun v => Expr.constant v none).filterMap Expr.value? = vs := by
    simp [List.filterMap_map, Function.comp_def, Expr.value?]
  rw [SequenceOp.toExpr?, SequenceOp.ofElements, if_pos hconstant, hvalues]

/-- A sequence made of constants that have no mapping is a constant list, and there is one when
there is an array literal of the same elements. Where constants are inlined both are written as the
same text, or both fail; neither binds parameters. -/
theorem write_fromElements {c : Catalog} (hinline : c.settings.inlineConstants = true)
    (type : HostType) (vs : List Value) (receiver : Option Expr) (ps : List Parameter) :
    let elements := vs.map fun v => Expr.constant v none
    ((SequenceOp.fromElements type).toExpr? c receiver elements = none ↔
        ∃ fault, Expr.arrayLiteral c elements type = .error fault) ∧
      ∀ collapsed array, (SequenceOp.fromElements type).toExpr? c receiver elements =
          some collapsed → Expr.arrayLiteral c elements type = .ok array →
        (write c collapsed ps).1.toOption = (write c array ps).1.toOption ∧
          (write c collapsed ps).2 = ps ∧ (write c array ps).2 = ps := by
  intro elements
  rw [fromElements_constants, Expr.arrayLiteral]
  cases hm : c.resolveType (.listOf type) with
  | none => simp
  | some m =>
    obtain ⟨element, rfl⟩ := exists_array_of_resolveType hm
    have helements : elements.map (Expr.annotate c (some element)) =
        vs.map fun v => .constant v (some element) := by
      simp [elements, Expr.annotate_constant]
    refine ⟨by simp, ?_⟩
    intro collapsed array hcollapsed harray
    obtain rfl := Option.some.inj hcollapsed
    obtain rfl := Except.ok.inj harray
    obtain ⟨htext, hparameters⟩ := write_of_yields (yields_constantList hinline vs) ps
    obtain ⟨htext', hparameters'⟩ := write_of_yields (yields_array hinline _ vs) ps
    rw [← helements] at htext' hparameters'
    exact ⟨htext.trans htext'.symm, hparameters, hparameters'⟩

section Examples

/-- A number and a null, for a type whose values may be absent. -/
theorem write_fromElements_nullable :
    ∃ collapsed array,
      (SequenceOp.fromElements (.option (.scalar .i64))).toExpr? default none
        ([.i64 1, .null].map fun v => .constant v none) = some collapsed ∧
      Expr.arrayLiteral default ([.i64 1, .null].map fun v => .constant v none)
        (.option (.scalar .i64)) = .ok array ∧
      (write default collapsed []).1 = .ok "ARRAY<INT64>[1, NULL]" ∧
      (write default array []).1.toOption = some "ARRAY<INT64>[1, NULL]" := by
  have hm : (default : Catalog).resolveType (.listOf (.option (.scalar .i64))) =
      some (.array (Catalog.nullable Builtin.int64.mapping) ⟨.option (.scalar .i64), .list⟩
        .list) := by
    have helement := Catalog.resolveKey_option (c := default) (.scalar .i64) none
    rw [Catalog.resolveKey_scalarType] at helement
    refine (Catalog.resolveKey_listType (by rfl)).trans ?_
    rw [helement]
    rfl
  have hcollapsed : (SequenceOp.fromElements (.option (.scalar .i64))).toExpr? default none
      ([.i64 1, .null].map fun v => .constant v none) = some (.typedConstant
        (.list [.i64 1, .null]) (.array (Catalog.nullable Builtin.int64.mapping)
          ⟨.option (.scalar .i64), .list⟩ .list)) := by
    rw [fromElements_constants, hm]
    rfl
  obtain ⟨array, harray⟩ : ∃ array, Expr.arrayLiteral default
      ([.i64 1, .null].map fun v => .constant v none) (.option (.scalar .i64)) = .ok array := by
    rw [Expr.arrayLiteral, hm]
    exact ⟨_, rfl⟩
  have hwritten : (write default (.typedConstant (.list [.i64 1, .null])
      (.array (Catalog.nullable Builtin.int64.mapping) ⟨.option (.scalar .i64), .list⟩ .list))
        []).1 = .ok "ARRAY<INT64>[1, NULL]" := by rfl
  obtain ⟨-, hsame⟩ := write_fromElements (c := default) rfl (.option (.scalar .i64))
    [.i64 1, .null] none []
  refine ⟨_, array, hcollapsed, harray, hwritten, ?_⟩
  rw [← (hsame _ array hcollapsed harray).1, hwritten]
  rfl

end Examples

end Sql

end TypedSql
