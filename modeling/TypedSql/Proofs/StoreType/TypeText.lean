import TypedSql.Proofs.StoreType.Cutting
import TypedSql.Proofs.Text.Trimmed

/-!
# Texts of store types

Scalar texts, and the texts that arrays and named fields make of them. Each is self-contained: it
is not empty, has no blanks at its ends, and every scan passes through it, so it can stand inside
any larger type.
-/

namespace TypedSql.StoreType

open Text

-- A condition on all characters of a text is decided character by character.
attribute [local instance (high)] List.decidableBAll

/-! ## Self-contained texts -/

/-- A text that stands for one type wherever it is put. -/
structure SelfContained (t : List Char) : Prop where
  passes : Passes 0 t
  ne_nil : t ≠ []
  trimmed : trim t = t

/-- An array type of a self-contained element type is self-contained. -/
theorem SelfContained.arrayOf {element : List Char} (h : Passes 1 element) :
    SelfContained (arrayOf element) :=
  ⟨h.arrayOf, by simp [StoreType.arrayOf], trim_cons_append (by decide) (by simp) (by decide)⟩

/-- A struct type is self-contained when every scan passes through its fields. -/
theorem SelfContained.structOf {fields : List (List Char × List Char)}
    (h : ∀ f ∈ fields, Passes 0 (fieldText f.1 f.2)) : SelfContained (structOf fields) :=
  ⟨.structOf h, by simp [StoreType.structOf], trim_cons_append (by decide) (by simp) (by decide)⟩

/-! ## Scalar texts -/

/-- The text of a scalar type: no blanks at its ends, no angle brackets and no backticks; its
parentheses are balanced, and its commas stand inside them. -/
structure ScalarText (s : List Char) : Prop where
  ne_nil : s ≠ []
  trimmed : trim s = s
  plain : ∀ c ∈ s, c ≠ '<' ∧ c ≠ '>' ∧ c ≠ backtick
  balanced : s.count ')' = s.count '(' ∧ ∀ p ∈ s.inits, p.count ')' ≤ p.count '('
  commas : ∀ p ∈ s.inits, p ++ [','] <+: s → p.count ')' < p.count '('

instance : DecidablePred ScalarText := fun s =>
  decidable_of_iff
    (s ≠ [] ∧ trim s = s ∧ (∀ c ∈ s, c ≠ '<' ∧ c ≠ '>' ∧ c ≠ backtick) ∧
      (s.count ')' = s.count '(' ∧ ∀ p ∈ s.inits, p.count ')' ≤ p.count '(') ∧
      ∀ p ∈ s.inits, p ++ [','] <+: s → p.count ')' < p.count '(')
    ⟨fun ⟨hne, htrim, hplain, hbalanced, hcommas⟩ => ⟨hne, htrim, hplain, hbalanced, hcommas⟩,
      fun h => ⟨h.ne_nil, h.trimmed, h.plain, h.balanced, h.commas⟩⟩

/-- Where no angle brackets stand, parentheses are all there is to count. -/
theorem tally_pieceRole {p : List Char} (h : ∀ c ∈ p, c ≠ '<' ∧ c ≠ '>' ∧ c ≠ backtick) :
    tally pieceRole .opening p = p.count '(' ∧ tally pieceRole .closing p = p.count ')' := by
  induction p with
  | nil => exact ⟨rfl, rfl⟩
  | cons c r ih =>
    obtain ⟨⟨hopen, hclose, -⟩, hr⟩ := List.forall_mem_cons.mp h
    obtain ⟨hopening, hclosing⟩ := ih hr
    rw [tally_cons, tally_cons, hopening, hclosing, List.count_cons, List.count_cons]
    grind [pieceRole, nestingRole]

/-- A scalar text is balanced, with its commas inside parentheses. -/
theorem ScalarText.balances {s : List Char} (h : ScalarText s) : Balances pieceRole 0 s := by
  have hcount {p : List Char} (hp : p <+: s) :=
    tally_pieceRole fun c hc => h.plain c (hp.subset hc)
  constructor
  · rw [(hcount List.prefix_rfl).1, (hcount List.prefix_rfl).2, h.balanced.1, Nat.zero_add]
  · intro p hp
    rw [(hcount hp).1, (hcount hp).2, Nat.zero_add]
    exact h.balanced.2 p ((List.mem_inits p s).mpr hp)
  · intro p c hc hinner
    obtain rfl := pieceRole_eq_inner.mp hinner
    have hp : p <+: s := (List.prefix_append p _).trans hc
    rw [(hcount hp).1, (hcount hp).2, Nat.zero_add]
    exact h.commas p ((List.mem_inits p s).mpr hp) hc

/-- Scalar texts are self-contained. -/
theorem ScalarText.selfContained {s : List Char} (h : ScalarText s) : SelfContained s where
  passes := by
    have hunquoted : Unquoted s s := .of_forall fun c hc => (h.plain c hc).2.2
    have hangle : Balances angleRole 0 s := .of_forall fun c hc =>
      angleRole_eq_other.mpr ⟨(h.plain c hc).1, (h.plain c hc).2.1⟩
    exact .of_balanced ⟨s, hunquoted, hangle⟩ ⟨s, hunquoted, h.balances⟩
  ne_nil := h.ne_nil
  trimmed := h.trimmed

/-! ## Composite texts -/

/-- The texts that arrays and structs with named fields make of scalar texts. -/
inductive TypeText : List Char → Prop
  | scalar {s : List Char} (h : ScalarText s) : TypeText s
  | array {element : List Char} (h : TypeText element) : TypeText (arrayOf element)
  | struct {fields : List (List Char × List Char)} (hnames : ∀ f ∈ fields, f.1 ≠ [])
      (h : ∀ f ∈ fields, TypeText f.2) : TypeText (structOf fields)

end TypedSql.StoreType
