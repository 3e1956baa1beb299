import TypedSql.Proofs.Sql.Lexing
import TypedSql.Proofs.StoreType.Rereading

/-!
# Store types without facets

A store type that shows no facets is its own form without facets, whatever the names of its fields
are: parentheses in quoted names are no facets. Such a type is a closed piece of SQL.
-/

namespace TypedSql.StoreType

open Text Sql Sql.Lexer

-- A condition on all characters of a text is decided character by character.
attribute [local instance (high)] List.decidableBAll

/-- The characters of identifiers mean nothing to a lexer. -/
theorem not_mem_marks_of_identifier {c : Char} (h : (c.isAlphanum || c == '_') = true) :
    c ∉ marks := by
  have hmarks : ∀ d ∈ marks, ¬(48 ≤ d.toNat ∧ d.toNat ≤ 57 ∨ 65 ≤ d.toNat ∧ d.toNat ≤ 90 ∨
      d.toNat = 95 ∨ 97 ≤ d.toNat ∧ d.toNat ≤ 122) := by decide
  exact fun hc => hmarks c hc (identifier_range h)

/-! ## Texts that are kept -/

/-- The removal of facets passes over a text outside quotes and keeps all of it. -/
def Kept (s : List Char) : Prop :=
  ∀ kept rest, stripFrom .plain 0 kept (s ++ rest) = stripFrom .plain 0 (s.reverse ++ kept) rest

namespace Kept

variable {s t : List Char}

/-- A text that is kept is its own form without facets. -/
theorem stripFacets (h : Kept s) : stripFacets s = s := by
  have hs := h [] []
  rw [List.append_nil, List.append_nil] at hs
  rw [StoreType.stripFacets, hs, stripFrom, List.reverse_reverse]

/-- The empty text is kept. -/
theorem nil : Kept [] := fun _ _ => rfl

/-- Two texts are kept one after the other. -/
theorem append (hs : Kept s) (ht : Kept t) : Kept (s ++ t) := by
  intro kept rest
  rw [List.append_assoc, hs, ht, List.reverse_append, List.append_assoc]

/-- A character is kept when it begins neither facets nor a quoted name. -/
theorem char {c : Char} (hfacets : c ≠ '(') (hquote : c ≠ backtick) : Kept [c] := by
  intro kept rest
  rw [List.singleton_append, stripFrom, if_neg hfacets, Scan.next, if_neg hquote]
  rfl

/-- A text is kept in which neither facets nor a quoted name begin. -/
theorem of_forall (h : ∀ c ∈ s, c ≠ '(' ∧ c ≠ backtick) : Kept s := by
  induction s with
  | nil => exact nil
  | cons c rest ih =>
    obtain ⟨⟨hfacets, hquote⟩, hrest⟩ := List.forall_mem_cons.mp h
    exact (char hfacets hquote).append (ih hrest)

/-- The characters of an escaped name are kept, up to the backtick that ends it. -/
theorem stripFrom_quoted (name kept rest : List Char) :
    stripFrom .quoted 0 kept (escapeWith nameCode name ++ backtick :: rest) =
      stripFrom .plain 0 (backtick :: ((escapeWith nameCode name).reverse ++ kept)) rest := by
  refine escapeWith_induction (motive := fun s => ∀ kept,
    stripFrom .quoted 0 kept (s ++ backtick :: rest) =
      stripFrom .plain 0 (backtick :: (s.reverse ++ kept)) rest) (fun _ => rfl) ?_ ?_ name kept
  · intro c s hc ih kept
    simp [stripFrom, Scan.next, nameCode_eq_none.mp hc, ih]
  · intro c s ih kept
    simp [stripFrom, Scan.next, ih]

/-- A quoted name is kept, whatever characters it has. -/
theorem quotedName (name : List Char) : Kept (quotedName name) := by
  intro kept rest
  rw [Text.quotedName, List.cons_append, List.append_assoc, List.singleton_append, stripFrom,
    if_neg (by decide), Scan.next, if_pos rfl, stripFrom_quoted]
  simp

end Kept

/-! ## Types -/

/-- A text that shows no facets and is closed where it stands outside quotes. -/
structure Unfaceted (s : List Char) : Prop where
  kept : Kept s
  neutral : Neutral s

namespace Unfaceted

variable {s t : List Char}

/-- Two texts show no facets one after the other. -/
theorem append (hs : Unfaceted s) (ht : Unfaceted t) : Unfaceted (s ++ t) :=
  ⟨hs.kept.append ht.kept, hs.neutral.append ht.neutral⟩

/-- A text without marks shows no facets. -/
theorem of_markless (h : Markless s) : Unfaceted s := by
  refine ⟨.of_forall fun c hc => ?_, .of_markless h⟩
  have hne {d : Char} (hd : d ∈ marks) : c ≠ d := fun e => h c hc (e ▸ hd)
  exact ⟨hne (by decide), hne (by decide)⟩

/-- The name of a field shows no facets, quoted or not. -/
theorem fieldName (name : List Char) : Unfaceted (fieldName name) := by
  rw [StoreType.fieldName]
  split
  next hplain =>
    rw [Bool.and_eq_true] at hplain
    refine of_markless fun c hc => ?_
    exact not_mem_marks_of_identifier ((chars_of_isPlainIdentifier hplain.1).2 c hc)
  next => exact ⟨.quotedName name, .quotedName name⟩

/-- A field shows no facets when its type shows none. -/
theorem fieldText (name : List Char) {type : List Char} (h : Unfaceted type) :
    Unfaceted (fieldText name type) := by
  rw [StoreType.fieldText]
  split
  · exact h
  · have hblank : Unfaceted [' '] := of_markless (by decide)
    exact (fieldName name).append (hblank.append h)

/-- A name in front of brackets shows no facets when what they hold shows none. -/
theorem brackets (head : List Char) (hhead : Markless head) (h : Unfaceted s) :
    Unfaceted (head ++ '<' :: (s ++ ['>'])) := by
  have hopen : Kept ['<'] := .char (by decide) (by decide)
  have hclose : Kept ['>'] := .char (by decide) (by decide)
  exact (of_markless hhead).append
    ⟨hopen.append (h.kept.append hclose), h.neutral.brackets rfl⟩

/-- The array type of an element type without facets shows none. -/
theorem arrayOf (h : Unfaceted s) : Unfaceted (arrayOf s) :=
  brackets "ARRAY".toList (by decide) h

/-- A struct type shows no facets when the types of its fields show none. -/
theorem structOf {fields : List (List Char × List Char)} (h : ∀ f ∈ fields, Unfaceted f.2) :
    Unfaceted (structOf fields) := by
  have hfields : ∀ t ∈ fields.map fun f => StoreType.fieldText f.1 f.2, Unfaceted t := by
    intro t ht
    obtain ⟨f, hf, rfl⟩ := List.mem_map.mp ht
    exact fieldText f.1 (h f hf)
  have hinner := commaSeparated_induction (of_markless (by decide))
    (of_markless (by decide)) append hfields
  exact brackets "STRUCT".toList (by decide) hinner

end Unfaceted

end TypedSql.StoreType
