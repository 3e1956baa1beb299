import TypedSql.StoreType.Written

/-!
# Texts that scans pass through

A scan of a store type follows quotes and brackets. A text passes when every scan that enters it
outside quotes comes out in the state in which it entered: the bracket that closes an outer one is
not found inside, and no comma inside separates outer fields. Brackets make a text pass that has
commas of its own.
-/

namespace TypedSql.StoreType

open Text

-- A condition on all characters of a text is decided character by character.
attribute [local instance (high)] List.decidableBAll

/-- Every scan passes through a text, when it stands inside at least so many brackets. -/
structure Passes (least : Nat) (s : List Char) : Prop where
  closes : ∀ depth rest, closeBracket? .plain depth (s ++ rest) =
    (closeBracket? .plain depth rest).map fun (before, after) => (s ++ before, after)
  splits : ∀ depth, least ≤ depth → ∀ rest,
    pieces? .plain depth (s ++ rest) = (pieces? .plain depth rest).map (s.foldr prepend)

/-- A text in front of the first piece. -/
theorem foldr_prepend (s first : List Char) (others : List (List Char)) :
    s.foldr prepend (first :: others) = (s ++ first) :: others := by
  induction s with
  | nil => rfl
  | cons c rest ih => rw [List.foldr_cons, ih, prepend, List.cons_append]

/-! ## One character -/

section Character

variable {c : Char} {depth : Nat} {rest : List Char}

/-- The search for the closing bracket goes on after a character that is no bracket. -/
theorem closeBracket?_plain (h : c ≠ '<' ∧ c ≠ '>' ∧ c ≠ backtick) :
    closeBracket? .plain depth (c :: rest) =
      (closeBracket? .plain depth rest).map fun (before, after) => (c :: before, after) := by
  obtain ⟨hopen, hclose, hquote⟩ := h
  rw [closeBracket?.eq_def]
  simp [Scan.shows, Scan.next, hopen, hclose, hquote]

/-- An opening bracket is one more to close. -/
theorem closeBracket?_open : closeBracket? .plain depth ('<' :: rest) =
    (closeBracket? .plain (depth + 1) rest).map fun (before, after) => ('<' :: before, after) :=
  rfl

/-- A closing bracket closes the last one opened. -/
theorem closeBracket?_close : closeBracket? .plain (depth + 1) ('>' :: rest) =
    (closeBracket? .plain depth rest).map fun (before, after) => ('>' :: before, after) :=
  rfl

/-- The bracket that closes the one already open ends the search. -/
theorem closeBracket?_end : closeBracket? .plain 0 ('>' :: rest) = some ([], rest) :=
  rfl

/-- A character that is no bracket, comma or quote belongs to the piece. -/
theorem pieces?_plain (h : c ≠ '<' ∧ c ≠ '>' ∧ c ≠ backtick)
    (hparen : c ≠ '(' ∧ c ≠ ')' ∧ c ≠ ',') :
    pieces? .plain depth (c :: rest) = (pieces? .plain depth rest).map (prepend c) := by
  obtain ⟨hopen, hclose, hquote⟩ := h
  rw [pieces?.eq_def]
  simp [Scan.shows, hopen, hclose, hquote, hparen]

/-- Brackets of both kinds open a nesting. -/
theorem pieces?_open (h : c = '<' ∨ c = '(') :
    pieces? .plain depth (c :: rest) = (pieces? .plain (depth + 1) rest).map (prepend c) := by
  rcases h with rfl | rfl <;> rfl

/-- Brackets of both kinds close a nesting. -/
theorem pieces?_close (h : c = '>' ∨ c = ')') :
    pieces? .plain (depth + 1) (c :: rest) = (pieces? .plain depth rest).map (prepend c) := by
  rcases h with rfl | rfl <;> rfl

/-- A bracket that was not opened ends the split without a result. -/
theorem pieces?_unopened (h : c = '>' ∨ c = ')') : pieces? .plain 0 (c :: rest) = none := by
  rcases h with rfl | rfl <;> rfl

/-- A comma inside a nesting belongs to the piece. -/
theorem pieces?_comma (h : 0 < depth) :
    pieces? .plain depth (',' :: rest) = (pieces? .plain depth rest).map (prepend ',') := by
  rw [pieces?.eq_def]
  simp [Scan.shows, backtick, Nat.ne_of_gt h]

/-- A comma outside all nestings ends the piece. -/
theorem pieces?_separator :
    pieces? .plain 0 (',' :: rest) = (pieces? .plain 0 rest).map ([] :: ·) :=
  rfl

end Character

/-! ## Texts that pass -/

namespace Passes

variable {least : Nat} {s t : List Char}

/-- More brackets do not hinder. -/
theorem mono {more : Nat} (h : Passes least s) (hle : least ≤ more) : Passes more s :=
  ⟨h.closes, fun depth hdepth => h.splits depth (Nat.le_trans hle hdepth)⟩

/-- The empty text passes. -/
theorem nil : Passes least [] :=
  ⟨fun _ _ => by simp, fun _ _ _ => by simp⟩

/-- Two texts that pass do so one after the other. -/
theorem append (hs : Passes least s) (ht : Passes least t) : Passes least (s ++ t) := by
  constructor
  · intro depth rest
    rw [List.append_assoc, hs.closes, ht.closes, Option.map_map]
    simp [Function.comp_def]
  · intro depth hdepth rest
    rw [List.append_assoc, hs.splits depth hdepth, ht.splits depth hdepth, Option.map_map]
    simp [Function.comp_def]

/-- A character that is no bracket, comma or quote passes. -/
theorem char {c : Char} (h : c ≠ '<' ∧ c ≠ '>' ∧ c ≠ backtick)
    (hparen : c ≠ '(' ∧ c ≠ ')' ∧ c ≠ ',') : Passes least [c] :=
  ⟨fun _ _ => closeBracket?_plain h, fun _ _ _ => pieces?_plain h hparen⟩

/-- A text without brackets, commas and quotes passes. -/
theorem of_forall
    (h : ∀ c ∈ s, (c ≠ '<' ∧ c ≠ '>' ∧ c ≠ backtick) ∧ c ≠ '(' ∧ c ≠ ')' ∧ c ≠ ',') :
    Passes least s := by
  induction s with
  | nil => exact nil
  | cons c rest ih =>
    obtain ⟨hc, hrest⟩ := List.forall_mem_cons.mp h
    exact (char hc.1 hc.2).append (ih hrest)

/-- A comma passes inside brackets. -/
theorem comma : Passes 1 [','] :=
  ⟨fun _ _ => closeBracket?_plain (by decide), fun _ hdepth _ => pieces?_comma hdepth⟩

/-- Brackets pass around what passes inside one more. -/
theorem brackets (h : Passes (least + 1) s) : Passes least ('<' :: s ++ ['>']) := by
  constructor
  · intro depth rest
    rw [List.append_assoc, List.cons_append, closeBracket?_open, h.closes, List.singleton_append,
      closeBracket?_close]
    simp [Function.comp_def]
  · intro depth hdepth rest
    rw [List.append_assoc, List.cons_append, pieces?_open (Or.inl rfl),
      h.splits (depth + 1) (Nat.add_le_add_right hdepth 1), List.singleton_append,
      pieces?_close (Or.inl rfl)]
    simp [Function.comp_def]

/-- Parentheses pass around what passes inside brackets. -/
theorem parentheses (h : Passes (least + 1) s) : Passes least ('(' :: s ++ [')']) := by
  constructor
  · intro depth rest
    rw [List.append_assoc, List.cons_append, closeBracket?_plain (by decide), h.closes,
      List.singleton_append, closeBracket?_plain (by decide)]
    simp [Function.comp_def]
  · intro depth hdepth rest
    rw [List.append_assoc, List.cons_append, pieces?_open (Or.inr rfl),
      h.splits (depth + 1) (Nat.add_le_add_right hdepth 1), List.singleton_append,
      pieces?_close (Or.inr rfl)]
    simp [Function.comp_def]

end Passes

/-! ## Arrays and structs -/

/-- An array type passes when its element type does inside brackets. -/
theorem Passes.arrayOf {least : Nat} {element : List Char} (h : Passes (least + 1) element) :
    Passes least (arrayOf element) :=
  (of_forall (s := "ARRAY".toList) (by decide)).append h.brackets

/-- What holds of texts, of the separator, and of two texts one after the other holds of the texts
with commas between them. -/
theorem commaSeparated_induction {P : List Char → Prop} (nil : P []) (separator : P ", ".toList)
    (append : ∀ {s t}, P s → P t → P (s ++ t)) {texts : List (List Char)}
    (h : ∀ t ∈ texts, P t) : P (commaSeparated texts) := by
  induction texts with
  | nil => exact nil
  | cons first rest ih =>
    obtain ⟨hfirst, hrest⟩ := List.forall_mem_cons.mp h
    cases rest with
    | nil => simpa [commaSeparated, List.intercalate] using hfirst
    | cons second others =>
      have htext := append hfirst (append separator (ih hrest))
      simpa [commaSeparated, List.intercalate] using htext

/-- Texts that pass do so inside brackets with commas between them. -/
theorem Passes.commaSeparated {texts : List (List Char)} (h : ∀ t ∈ texts, Passes 0 t) :
    Passes 1 (commaSeparated texts) := by
  have hblank : Passes 1 [' '] := char (by decide) (by decide)
  exact commaSeparated_induction nil (comma.append hblank) append fun t ht =>
    (h t ht).mono (Nat.zero_le 1)

/-- A struct type passes when its fields do. -/
theorem Passes.structOf {fields : List (List Char × List Char)}
    (h : ∀ f ∈ fields, Passes 0 (fieldText f.1 f.2)) : Passes 0 (structOf fields) := by
  have hfields : ∀ t ∈ fields.map fun f => fieldText f.1 f.2, Passes 0 t := by
    intro t ht
    obtain ⟨f, hf, rfl⟩ := List.mem_map.mp ht
    exact h f hf
  exact (of_forall (s := "STRUCT".toList) (by decide)).append (commaSeparated hfields).brackets

end TypedSql.StoreType
