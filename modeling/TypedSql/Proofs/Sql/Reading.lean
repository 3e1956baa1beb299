import Mathlib.Logic.Basic
import TypedSql.Proofs.Sql.Regroup
import TypedSql.Proofs.Sql.Spacing

/-!
# Reading written SQL

What written SQL means to a reader that knows the grammar. Every operand stands at a level that its
place admits, or in parentheses, so that the text of an expression is read as its regrouped outline
and as nothing else. Where no right operand repeats an associative operator, that is the outline
itself.
-/

namespace TypedSql.Sql

open Grammar Phrase

variable {ctx : Context}

/-! ## Where operands stand -/

/-- The level at which an expression is written. -/
def standing : Expr → Nat
  | .binary _ op _ _ => level op
  | .unary .not _ _ => 3
  | .unary .negate _ _ => 7
  | .inUnnest .. => 4
  | .index .. | .member .. => 8
  | _ => 9

/-- The strength of a binary operator is its level. -/
theorem precedence_eq_level (op : BinaryOp) : op.precedence = level op := by
  cases op <;> rfl

/-- The strength of an operand is the level at which it stands, if parentheses may be needed. -/
theorem precedence?_eq (e : Expr) :
    e.precedence? = if standing e < 8 then some (standing e) else none := by
  cases e with
  | binary _ op _ _ => cases op <;> rfl
  | unary op _ _ => cases op <;> rfl
  | _ => rfl

/-- Expressions stand at levels of the grammar. -/
theorem standing_bounds (e : Expr) : 1 ≤ standing e ∧ standing e ≤ 9 := by
  cases e with
  | binary _ op _ _ => cases op <;> simp [standing, level]
  | unary op _ _ => cases op <;> simp [standing]
  | _ => simp [standing]

/-- A binary operation stands at the level of its operator. -/
theorem standing_of_operator? {e : Expr} {op : BinaryOp} (h : e.operator? = some op) :
    standing e = level op := by
  cases e with
  | binary l o r m =>
    obtain rfl : o = op := by simpa [Expr.operator?] using h
    rfl
  | _ => simp [Expr.operator?] at h

/-- Only binary operations stand at the level of an operator that chains. -/
theorem standing_ne_level {e : Expr} (h : e.operator? = none) {op : BinaryOp} (hop : level op ≠ 4) :
    standing e ≠ level op := by
  have hlevel := level_bounds op
  cases e with
  | binary l o r m => simp [Expr.operator?] at h
  | unary o _ _ => cases o <;> simp only [standing] <;> omega
  | inUnnest _ _ _ => exact Ne.symm hop
  | _ =>
    simp only [standing]
    omega

/-- An operand binds looser than a strength when it stands below that level. -/
theorem looserThan_iff (e : Expr) {k : Nat} (hk : k ≤ 8) :
    looserThan e k = true ↔ standing e < k := by
  rw [looserThan, precedence?_eq]
  split
  · simp
  · simp only [Option.any_none, Bool.false_eq_true, false_iff]
    omega

/-- An operand binds as tightly as a strength when it stands at that level. -/
theorem asTightAs_iff (e : Expr) {k : Nat} (hk : k ≤ 7) :
    asTightAs e k = true ↔ standing e = k := by
  rw [asTightAs, precedence?_eq]
  split
  · simp
  · simp only [beq_iff_eq, reduceCtorEq, false_iff]
    omega

/-- An operand in front of an index or a field is grouped below their level. -/
theorem baseGrouped_iff (e : Expr) : baseGrouped e = true ↔ standing e < 8 := by
  rw [baseGrouped, precedence?_eq]
  split <;> simp_all

/-- The comparisons are the operators of one level. -/
theorem isComparison_iff (op : BinaryOp) : op.isComparison = true ↔ level op = 4 := by
  cases op <;> simp [BinaryOp.isComparison, level]

/-- A left operand below the level of its operator, or beside a comparison at it, is grouped. -/
theorem leftGrouped_iff (op : BinaryOp) (e : Expr) :
    leftGrouped op e = true ↔ standing e < level op ∨ standing e = level op ∧ level op = 4 := by
  have hlevel := level_bounds op
  rw [leftGrouped, precedence_eq_level, Bool.or_eq_true, Bool.and_eq_true,
    looserThan_iff e (by omega), asTightAs_iff e (by omega), isComparison_iff]

/-- A right operand below the level of its operator is grouped, and one at that level unless it
repeats the operator. -/
theorem rightGrouped_iff (op : BinaryOp) (e : Expr) :
    rightGrouped op e = true ↔
      standing e < level op ∨ standing e = level op ∧ ¬repeats op e = true := by
  have hlevel := level_bounds op
  rw [rightGrouped, precedence_eq_level, Bool.or_eq_true, Bool.and_eq_true,
    looserThan_iff e (by omega), asTightAs_iff e (by omega), Bool.not_eq_true', Bool.not_eq_true]

/-- The operand of a minus sign is grouped up to the level of minus signs. -/
theorem unaryGrouped_of_lt {op : UnaryOp} {e : Expr} (h : standing e < op.precedence + 1) :
    unaryGrouped op e = true := by
  have hlevel : op.precedence + 1 ≤ 8 := by cases op <;> decide
  rw [unaryGrouped, (looserThan_iff e hlevel).mpr h, Bool.true_or]

/-- The item of a membership test is grouped up to the level of comparisons. -/
theorem itemGrouped_iff (e : Expr) : itemGrouped e = true ↔ standing e < 5 :=
  looserThan_iff e (by decide)

/-! ## Operands in their places -/

variable {a : List Token} {x t : Phrase} {op : BinaryOp} {pieces : List Lexeme}

/-- An operand can be read at a level that it stands at or above, and at any in parentheses. -/
theorem derives_grouped {p q : Nat} {paren : Bool} (h : Derives q (Lexeme.tokensOfAll pieces) t)
    (hq : 1 ≤ q ∧ q ≤ 9) (hp : p ≤ 9) (hparen : paren = false → p ≤ q) :
    Derives p (Lexeme.tokensOfAll (grouped paren pieces)) t := by
  cases paren with
  | false => exact h.loosen (hparen rfl) hq.2
  | true =>
    have hgroup : Derives 9 (.openParen :: (Lexeme.tokensOfAll pieces ++ [.closeParen])) t :=
      (h.loosen hq.1 hq.2).group
    simpa [grouped, Lexeme.tokens] using hgroup.loosen hp (Nat.le_refl 9)

/-- What an operator is written in front of, read together with it. -/
def Grafts (op : BinaryOp) (pieces : List Lexeme) (t : Phrase) : Prop :=
  ∀ a x, Derives (level op) a x →
    Derives (level op) (a ++ .operator op :: Lexeme.tokensOfAll pieces) (graft x op t)

/-- An operand at a tighter level is the whole right operand of the operator in front of it. -/
theorem grafts_of_tighter (h : Derives (level op + 1) (Lexeme.tokensOfAll pieces) t)
    (hop : level op ≠ 4) (ht : ∀ o, t.operator? = some o → level o ≠ level op) :
    Grafts op pieces t := by
  intro a x hx
  rw [graft_eq_binary ht]
  exact hx.binary hop h

/-- Phrases repeat an operator as the expressions they stand for do. -/
theorem repeats_eq {e : Expr} (op : BinaryOp) (h : t.operator? = e.operator?) :
    Phrase.repeats op t = Sql.repeats op e := by
  rw [Phrase.repeats, h]
  cases e <;> simp [Sql.repeats, Expr.operator?]

/-- How the text of an expression is read, by itself and behind an operator that chains. -/
structure ReadAs (e : Expr) (pieces : List Lexeme) (t : Phrase) : Prop where
  operator : t.operator? = e.operator?
  derives : Derives (standing e) (Lexeme.tokensOfAll pieces) t
  grafts : ∀ op, level op ≠ 4 → level op ≤ standing e → Grafts op pieces t

namespace ReadAs

variable {e : Expr}

/-- An expression that is no binary operation is read behind an operator as its right operand. -/
theorem of_derives (hnone : e.operator? = none) (ht : t.operator? = none)
    (h : Derives (standing e) (Lexeme.tokensOfAll pieces) t) : ReadAs e pieces t where
  operator := ht.trans hnone.symm
  derives := h
  grafts op hop hle := by
    have hlt := Nat.lt_of_le_of_ne hle (Ne.symm (standing_ne_level hnone hop))
    exact grafts_of_tighter (h.loosen hlt (standing_bounds e).2) hop (by simp [ht])

/-- The text of an expression by itself. -/
theorem expression (h : ReadAs e pieces t) : Derives 1 (Lexeme.tokensOfAll pieces) t :=
  h.derives.loosen (standing_bounds e).1 (standing_bounds e).2

/-- The text of an operand in its place, at a level that its parentheses make up for. -/
theorem place (h : ReadAs e pieces t) (p : Nat) (paren : Bool) (hp : p ≤ 9)
    (hparen : paren = false → p ≤ standing e) :
    Derives p (Lexeme.tokensOfAll (grouped paren pieces)) t :=
  derives_grouped h.derives (standing_bounds e) hp hparen

/-- An expression at another level than an operator has no operator of that level on top. -/
theorem level_ne (h : ReadAs e pieces t) (hne : standing e ≠ level op) (o : BinaryOp)
    (ho : t.operator? = some o) : level o ≠ level op := by
  rw [h.operator] at ho
  rwa [← standing_of_operator? ho]

/-- A left operand behind an earlier operator of the same level. -/
theorem grafts_left (h : ReadAs e pieces t) {o : BinaryOp} (ho : level o ≠ 4)
    (hop : level op = level o) : Grafts op (grouped (leftGrouped o e) pieces) t := by
  have hlevel := level_bounds o
  have hparen := leftGrouped_iff o e
  cases hgroup : leftGrouped o e with
  | false =>
    have hle : level op ≤ standing e := by
      simp only [hgroup, Bool.false_eq_true, false_iff] at hparen
      omega
    exact h.grafts op (hop ▸ ho) hle
  | true =>
    have hne : standing e ≠ level op := by
      simp only [hgroup, true_iff] at hparen
      omega
    exact grafts_of_tighter (h.place _ true (by omega) (by simp)) (hop ▸ ho) (h.level_ne hne)

/-- A right operand behind its operator. -/
theorem attach_right (h : ReadAs e pieces t) {o : BinaryOp} (ho : level o ≠ 4)
    (hx : Derives (level o) a x) :
    Derives (level o)
      (a ++ .operator o :: Lexeme.tokensOfAll (grouped (rightGrouped o e) pieces))
      (attach x o t (Phrase.repeats o t)) := by
  have hlevel := level_bounds o
  have hrepeats : Phrase.repeats o t = Sql.repeats o e := repeats_eq o h.operator
  by_cases hagain : Sql.repeats o e = true
  · have hstanding : standing e = level o := by
      cases e <;> simp [Sql.repeats] at hagain
      rw [standing, hagain.2]
    have hparen : rightGrouped o e = false := by
      rw [Bool.eq_false_iff, ne_eq, rightGrouped_iff, hagain]
      simp [hstanding]
    rw [hrepeats, hagain, hparen]
    exact h.grafts o ho (Nat.le_of_eq hstanding.symm) a x hx
  · rw [hrepeats, Bool.eq_false_iff.mpr hagain]
    refine hx.binary ho (h.place _ _ (by omega) fun hparen => ?_)
    simp only [Bool.eq_false_iff, ne_eq, rightGrouped_iff, hagain, Bool.false_eq_true,
      not_false_eq_true, and_true] at hparen
    omega

end ReadAs

/-! ## Every node -/

variable {ctx : Context}

/-- A leaf is read as the word that is written. -/
theorem ReadAs.leaf {e : Expr} {step : Emit} (hword : YieldsWord step) (hnone : e.operator? = none)
    (hstanding : standing e = 9) {s : Progress} (hs : (step.run s).2.fault = none) :
    ReadAs e (step.run s).1 ((wordOf step).run s).1.regroup := by
  obtain ⟨text, hpieces, hphrase⟩ := wordOf_eq_word hword hs
  rw [hpieces, hphrase]
  exact .of_derives hnone rfl (hstanding ▸ Derives.word)

/-- A binary operation whose operands are read as they should be. -/
theorem ReadAs.binary {l r : Expr} {ls rs : List Lexeme} {x y : Phrase} (o : BinaryOp)
    (m : Option Mapping) (hl : ReadAs l ls x) (hr : ReadAs r rs y) :
    ReadAs (.binary l o r m)
      (grouped (leftGrouped o l) ls ++ .binary o :: grouped (rightGrouped o r) rs)
      (attach x o y (Phrase.repeats o y)) := by
  have hlevel := level_bounds o
  have htop : (attach x o y (Phrase.repeats o y)).operator? = some o :=
    operator?_attach x operator?_of_repeats
  have hderives : Derives (level o)
      (Lexeme.tokensOfAll (grouped (leftGrouped o l) ls) ++
        .operator o :: Lexeme.tokensOfAll (grouped (rightGrouped o r) rs))
      (attach x o y (Phrase.repeats o y)) := by
    by_cases ho : level o = 4
    · have hassoc : o.isAssociative = false := by
        cases o <;> simp_all [BinaryOp.isAssociative, level]
      have hrepeats : Sql.repeats o r = false := by cases r <;> simp [Sql.repeats, hassoc]
      rw [ho, Phrase.repeats, hassoc]
      refine Derives.comparison ho (hl.place 5 _ (by decide) fun hparen => ?_)
        (hr.place 5 _ (by decide) fun hparen => ?_)
      · simp only [Bool.eq_false_iff, ne_eq, leftGrouped_iff] at hparen
        omega
      · simp only [Bool.eq_false_iff, ne_eq, rightGrouped_iff, hrepeats, Bool.false_eq_true,
          not_false_eq_true, and_true] at hparen
        omega
    · refine hr.attach_right ho (hl.place _ _ (by omega) fun hparen => ?_)
      simp only [Bool.eq_false_iff, ne_eq, leftGrouped_iff] at hparen
      omega
  have htokens : Lexeme.tokensOfAll
      (grouped (leftGrouped o l) ls ++ .binary o :: grouped (rightGrouped o r) rs) =
        Lexeme.tokensOfAll (grouped (leftGrouped o l) ls) ++
          .operator o :: Lexeme.tokensOfAll (grouped (rightGrouped o r) rs) := by
    simp [Lexeme.tokens]
  refine ⟨htop, htokens ▸ hderives, fun op hop hle => ?_⟩
  -- an operator in front binds either the whole operation or the leftmost operand of its level
  rcases Nat.lt_or_eq_of_le hle with hlt | heq
  · refine grafts_of_tighter (htokens ▸ hderives.loosen hlt (by omega)) hop fun o' ho' => ?_
    obtain rfl : o = o' := by simpa [htop] using ho'
    exact (Nat.ne_of_lt hlt).symm
  · intro a x' hx
    change level op = level o at heq
    have hlo : level o ≠ 4 := fun h4 => hop (heq.trans h4)
    have hleft := hl.grafts_left hlo heq a x' hx
    have hright := hr.attach_right hlo (heq ▸ hleft)
    rw [htokens, graft_attach heq.symm, heq]
    simpa using hright

/-- Expressions written between commas are read one by one. -/
theorem readAll_emitAll {es : List Expr}
    (h : ∀ e ∈ es, ∀ s, ((emit ctx e).run s).2.fault = none →
      ReadAs e ((emit ctx e).run s).1 ((outline ctx e).run s).1.regroup)
    {s : Progress} (hs : ((emitAll ctx es).run s).2.fault = none) :
    ∃ args : List (List Token × Phrase), args.length = es.length ∧
      Lexeme.tokensOfAll ((emitAll ctx es).run s).1 = separated (args.map Prod.fst) ∧
      regroupAll ((outlineAll ctx es).run s).1 = args.map Prod.snd ∧
      ∀ arg ∈ args, Derives 1 arg.1 arg.2 := by
  induction es generalizing s with
  | nil => exact ⟨[], rfl, rfl, rfl, by simp⟩
  | cons first rest ih =>
    have hrest : ((emitAll ctx rest).run ((emit ctx first).run s).2).2.fault = none := hs
    have hfirst := keepsFault_emitAll rest _ hrest
    obtain ⟨args, hlength, htokens, hphrases, hargs⟩ :=
      ih (fun e he => h e (List.mem_cons_of_mem _ he)) hrest
    have hread := h first List.mem_cons_self s hfirst
    refine ⟨(Lexeme.tokensOfAll ((emit ctx first).run s).1,
      ((outline ctx first).run s).1.regroup) :: args, ?_, ?_, ?_, ?_⟩
    · simp [hlength]
    · change Lexeme.tokensOfAll (((emit ctx first).run s).1 ++ (if rest.isEmpty then []
        else .comma :: ((emitAll ctx rest).run ((emit ctx first).run s).2).1)) = _
      cases rest with
      | nil =>
        obtain rfl := List.eq_nil_of_length_eq_zero hlength
        simp [separated]
      | cons next others =>
        obtain ⟨arg, args, rfl⟩ := List.exists_cons_of_length_eq_add_one hlength
        simp [htokens, separated, Lexeme.tokens]
    · change regroup ((outline ctx first).run s).1 ::
        regroupAll ((outlineAll ctx rest).run ((outline ctx first).run s).2).1 = _
      rw [state_outline, hphrases, List.map_cons]
    · intro arg harg
      rcases List.mem_cons.mp harg with rfl | harg
      · exact hread.expression
      · exact hargs arg harg

/-- The text of an expression is read as its regrouped outline. -/
theorem readAs_regroup (e : Expr) {s : Progress} (hs : ((emit ctx e).run s).2.fault = none) :
    ReadAs e ((emit ctx e).run s).1 ((outline ctx e).run s).1.regroup := by
  induction e generalizing s with
  | array elements _ _ mapping ih =>
    cases mapping with
    | none => exact absurd hs (fault_fail _ s)
    | some m =>
      have hitems : ((emitAll ctx elements).run s).2.fault = none := hs
      obtain ⟨args, -, htokens, hphrases, hargs⟩ :=
        readAll_emitAll (fun e he s hs => ih e he hs) hitems
      refine .of_derives rfl rfl ?_
      change Derives 9 (Lexeme.tokensOfAll (.word m.literalStoreType.toList :: .openBracket ::
        (((emitAll ctx elements).run s).1 ++ [.closeBracket])))
        (.array m.literalStoreType.toList (regroupAll ((outlineAll ctx elements).run s).1))
      rw [hphrases]
      simpa [Lexeme.tokens, htokens] using Derives.array hargs
  | binary l op r m ihl ihr =>
    have hr : ((emit ctx r).run ((emit ctx l).run s).2).2.fault = none := hs
    have hread := (ihl (keepsFault_emit r _ hr)).binary op m (ihr hr)
    change ReadAs _ _ (attach ((outline ctx l).run s).1.regroup op
      ((outline ctx r).run ((outline ctx l).run s).2).1.regroup
      (Phrase.repeats op ((outline ctx r).run ((outline ctx l).run s).2).1))
    rw [state_outline]
    rwa [Phrase.repeats, operator?_regroup] at hread
  | cast x m ih =>
    have hx := ih hs
    refine .of_derives rfl rfl ?_
    change Derives 9 (Lexeme.tokensOfAll (.openCast ::
      (((emit ctx x).run s).1 ++ [.castType, .word m.storeType.toList, .closeParen])))
      (.cast ((outline ctx x).run s).1.regroup m.storeType.toList)
    have hinner := hx.expression
    simpa [Lexeme.tokens] using hinner.cast
  | column => exact .of_derives rfl rfl .word
  | constant v m => exact .leaf (constant_leaf m v).2 rfl rfl hs
  | call name args m ih =>
    have hitems : ((emitAll ctx args).run s).2.fault = none := hs
    obtain ⟨parts, -, htokens, hphrases, hparts⟩ :=
      readAll_emitAll (fun e he s hs => ih e he hs) hitems
    refine .of_derives rfl rfl ?_
    change Derives 9 (Lexeme.tokensOfAll (.word name.toList :: .openParen ::
      (((emitAll ctx args).run s).1 ++ [.closeParen])))
      (.call name.toList (regroupAll ((outlineAll ctx args).run s).1))
    rw [hphrases]
    simpa [Lexeme.tokens, htokens] using Derives.call hparts
  | inUnnest item arr m ihi iha =>
    have harr : ((emit ctx arr).run ((emit ctx item).run s).2).2.fault = none := hs
    have hitem := ihi (keepsFault_emit arr _ harr)
    have hinner := (iha harr).expression
    refine .of_derives rfl rfl ?_
    change Derives 4 (Lexeme.tokensOfAll (grouped (itemGrouped item) ((emit ctx item).run s).1 ++
      .inUnnest :: (((emit ctx arr).run ((emit ctx item).run s).2).1 ++ [.closeParen])))
      (.inUnnest ((outline ctx item).run s).1.regroup
        ((outline ctx arr).run ((outline ctx item).run s).2).1.regroup)
    rw [state_outline]
    have hplace := hitem.place 5 (itemGrouped item) (by decide) fun hparen => by
      simpa [Bool.eq_false_iff, itemGrouped_iff] using hparen
    simpa [Lexeme.tokens] using hplace.inUnnest hinner
  | index arr idx mode m iha ihi =>
    have hidx : ((emit ctx idx).run ((emit ctx arr).run s).2).2.fault = none := hs
    have harr := iha (keepsFault_emit idx _ hidx)
    have hinner := (ihi hidx).expression
    refine .of_derives rfl rfl ?_
    change Derives 8 (Lexeme.tokensOfAll (grouped (baseGrouped arr) ((emit ctx arr).run s).1 ++
      .openIndex mode :: (((emit ctx idx).run ((emit ctx arr).run s).2).1 ++ [.closeIndex])))
      (.index ((outline ctx arr).run s).1.regroup
        ((outline ctx idx).run ((outline ctx arr).run s).2).1.regroup mode)
    rw [state_outline]
    have hplace := harr.place 8 (baseGrouped arr) (by decide) fun hparen => by
      simpa [Bool.eq_false_iff, baseGrouped_iff] using hparen
    simpa [Lexeme.tokens] using hplace.index hinner
  | member x name m ih =>
    have hx := ih hs
    refine .of_derives rfl rfl ?_
    change Derives 8 (Lexeme.tokensOfAll (grouped (baseGrouped x) ((emit ctx x).run s).1 ++
      [.field (Text.quotedName name.toList)]))
      (.member ((outline ctx x).run s).1.regroup (Text.quotedName name.toList))
    have hplace := hx.place 8 (baseGrouped x) (by decide) fun hparen => by
      simpa [Bool.eq_false_iff, baseGrouped_iff] using hparen
    simpa [Lexeme.tokens] using hplace.member
  | parameter name v m => exact .leaf (bind_leaf (.of name v) m).2 rfl rfl hs
  | unary op x m ih =>
    have hx := ih hs
    refine .of_derives rfl rfl ?_
    change Derives (standing (.unary op x m)) (Lexeme.tokensOfAll (.unary op ::
      grouped (unaryGrouped op x) ((emit ctx x).run s).1))
      (.unary op ((outline ctx x).run s).1.regroup)
    have hplace := hx.place op.precedence (unaryGrouped op x)
      (by cases op <;> decide) fun hparen => by
        refine Nat.le_of_not_lt fun hlt => ?_
        rw [unaryGrouped_of_lt (by omega)] at hparen
        exact Bool.noConfusion hparen
    cases op with
    | not => simpa [Lexeme.tokens, standing] using hplace.not
    | negate => simpa [Lexeme.tokens, standing] using hplace.negate

/-- Written SQL is read as the regrouped outline of its expression and as nothing else. -/
theorem derives_iff_regroup {c : Catalog} {e : Expr} {parameters final : List Parameter}
    {text : String} (hwrite : write c e parameters = (.ok text, final)) (t : Phrase) :
    Derives 1 (tokens c e parameters) t ↔ t = (outlineOf c e parameters).regroup := by
  have hread := readAs_regroup e (fault_of_write hwrite)
  have hderives := hread.expression
  constructor
  · intro ht
    exact ht.unique Nat.one_pos hderives
  · rintro rfl
    exact hderives

/-! ## Operators that are not repeated -/

/-- No right operand repeats the associative operator in front of it. -/
def Unrepeated : Expr → Prop := Expr.RightOperands fun op r => repeats op r = false

/-- Outlines of several expressions are regrouped as each of them is. -/
theorem regroupAll_outlineAll {es : List Expr}
    (h : ∀ e ∈ es, ∀ s, ((outline ctx e).run s).1.regroup = ((outline ctx e).run s).1)
    (s : Progress) :
    regroupAll ((outlineAll ctx es).run s).1 = ((outlineAll ctx es).run s).1 := by
  induction es generalizing s with
  | nil => rfl
  | cons first rest ih =>
    have hfirst := h first List.mem_cons_self s
    have hrest := ih (fun e he => h e (List.mem_cons_of_mem _ he)) ((outline ctx first).run s).2
    exact congrArg₂ List.cons hfirst hrest

/-- Where no operator is repeated, regrouping changes nothing. -/
theorem regroup_outline {e : Expr} (he : Unrepeated e) (s : Progress) :
    ((outline ctx e).run s).1.regroup = ((outline ctx e).run s).1 := by
  induction e generalizing s with
  | array elements _ _ mapping ih =>
    have hparts : ∀ e ∈ elements, Unrepeated e := by simpa [Unrepeated] using he
    cases mapping with
    | none => rfl
    | some m =>
      refine congrArg (Phrase.array m.literalStoreType.toList) (regroupAll_outlineAll ?_ s)
      intro e hmem
      exact ih e hmem (hparts e hmem)
  | binary l op r m ihl ihr =>
    obtain ⟨hl, hr, hop⟩ := Expr.rightOperands_binary.mp he
    change attach ((outline ctx l).run s).1.regroup op
      ((outline ctx r).run ((outline ctx l).run s).2).1.regroup
      (Phrase.repeats op ((outline ctx r).run ((outline ctx l).run s).2).1) = _
    rw [ihl hl, ihr hr, repeats_eq op (operator?_outline r _), hop]
    rfl
  | cast x m ih =>
    exact congrArg (Phrase.cast · m.storeType.toList) (ih (Expr.rightOperands_cast.mp he) s)
  | column => rfl
  | constant v m => rfl
  | call name args m ih =>
    have hparts : ∀ e ∈ args, Unrepeated e := by simpa [Unrepeated] using he
    refine congrArg (Phrase.call name.toList) (regroupAll_outlineAll ?_ s)
    intro e hmem
    exact ih e hmem (hparts e hmem)
  | inUnnest item arr m ihi iha =>
    obtain ⟨hitem, harr⟩ := Expr.rightOperands_inUnnest.mp he
    exact congrArg₂ Phrase.inUnnest (ihi hitem s) (iha harr ((outline ctx item).run s).2)
  | index arr idx mode m iha ihi =>
    obtain ⟨harr, hidx⟩ := Expr.rightOperands_index.mp he
    exact congrArg₂ (Phrase.index · · mode) (iha harr s) (ihi hidx ((outline ctx arr).run s).2)
  | member x name m ih =>
    exact congrArg (Phrase.member · (Text.quotedName name.toList))
      (ih (Expr.rightOperands_member.mp he) s)
  | parameter name v m => rfl
  | unary op x m ih => exact congrArg (Phrase.unary op) (ih (Expr.rightOperands_unary.mp he) s)

/-- Written SQL without repeated operators spells tokens that the grammar reads as the outline of
the expression, and as nothing else. -/
theorem derives_iff_outline {c : Catalog} {e : Expr} {parameters final : List Parameter}
    {text : String} (hwrite : write c e parameters = (.ok text, final)) (he : Unrepeated e) :
    Spells (tokens c e parameters) text.toList ∧
      ∀ t, Derives 1 (tokens c e parameters) t ↔ t = outlineOf c e parameters := by
  refine ⟨spells_of_write hwrite, fun t => ?_⟩
  rw [derives_iff_regroup hwrite, outlineOf, regroup_outline he]

/-- A negated column compared with a membership test. -/
def negationOfMembership : Expr :=
  let truth := Mapping.scalar "BOOL" (.scalar .bool) .bool
  let integer := Mapping.scalar "INT64" (.scalar .i64) .int64
  .binary (.unary .not (.column none "flag" truth) truth) .eq
    (.inUnnest (.column none "item" integer)
      (.column none "items" (.array integer ⟨.scalar .i64, .list⟩ .list)) truth) truth

/-- The parentheses around both operands of a comparison are read as the operands. -/
theorem derives_iff_outline_negationOfMembership :
    write default negationOfMembership [] =
        (.ok "(NOT `flag`) = (`item` IN UNNEST(`items`))", []) ∧
      Unrepeated negationOfMembership ∧
      Spells (tokens default negationOfMembership [])
        "(NOT `flag`) = (`item` IN UNNEST(`items`))".toList ∧
      ∀ t, Derives 1 (tokens default negationOfMembership []) t ↔
        t = outlineOf default negationOfMembership [] := by
  have hwrite : write default negationOfMembership [] =
      (.ok "(NOT `flag`) = (`item` IN UNNEST(`items`))", []) := rfl
  have hunrepeated : Unrepeated negationOfMembership := by
    simp [Unrepeated, negationOfMembership, repeats]
  exact ⟨hwrite, hunrepeated, derives_iff_outline hwrite hunrepeated⟩

end TypedSql.Sql
