import TypedSql.Catalog.Builtin
import TypedSql.Proofs.StoreType.FacetText

/-!
# Table names with facets

The names of the scalar store types consist of letters and digits, so a name with facets is taken
apart again at its parenthesis. A name without facets is a single word; a scale adds a blank.
-/

namespace TypedSql.StoreType

open Text Numeral

-- A condition on all characters of a text is decided character by character.
attribute [local instance (high)] List.decidableBAll

/-! ## Names -/

/-- A name that one of the scalar store types goes by, in any case. -/
def IsTableName (base : List Char) : Prop := (Builtin.named? base).isSome = true

instance : DecidablePred IsTableName := fun base =>
  inferInstanceAs (Decidable ((Builtin.named? base).isSome = true))

/-- A character that is a letter or a digit in upper case is one. -/
theorem isAlphanum_of_toUpper {c : Char} (h : c.toUpper.isAlphanum = true) :
    c.isAlphanum = true := by
  unfold Char.toUpper at h
  split at h
  next hlower =>
    have hletter : c.isLower = true := by
      unfold Char.isLower
      simpa only [Bool.and_eq_true, decide_eq_true_eq] using hlower
    unfold Char.isAlphanum Char.isAlpha
    rw [hletter, Bool.or_true, Bool.true_or]
  next => exact h

/-- The names in the tables consist of letters and digits. -/
theorem isAlphanum_of_mem_names (b : Builtin) :
    ∀ n ∈ b.names, n.toList ≠ [] ∧ ∀ c ∈ n.toList, c.isAlphanum = true := by
  cases b <;> decide

namespace IsTableName

variable {base : List Char}

/-- A table name has a character, and all its characters are letters or digits. -/
theorem chars (h : IsTableName base) : base ≠ [] ∧ ∀ c ∈ base, c.isAlphanum = true := by
  obtain ⟨b, hb⟩ := Option.isSome_iff_exists.mp h
  have hany : (b.names.any fun n => n.toList == upper base) = true :=
    List.find?_some (p := fun b : Builtin => b.names.any fun n => n.toList == upper base) hb
  obtain ⟨n, hn, hupper⟩ := List.any_eq_true.mp hany
  obtain ⟨hne, hchars⟩ := isAlphanum_of_mem_names b n hn
  have hname : n.toList = upper base := eq_of_beq hupper
  rw [hname] at hne hchars
  refine ⟨fun hnil => hne (by rw [hnil]; rfl), fun c hc => isAlphanum_of_toUpper (hchars _ ?_)⟩
  exact List.mem_map_of_mem hc

/-- The characters of a table name are no blanks and mean nothing to a scan. -/
theorem plain (h : IsTableName base) : ∀ c ∈ base, isBlank c = false ∧
    ((c ≠ '<' ∧ c ≠ '>' ∧ c ≠ backtick) ∧ c ≠ '(' ∧ c ≠ ')' ∧ c ≠ ',') ∧ c ≠ '\\' :=
  fun c hc => identifier_char (by rw [h.chars.2 c hc, Bool.true_or])

/-- A table name has no angle bracket. -/
theorem not_mem (h : IsTableName base) : '<' ∉ base := fun hmem => (h.plain '<' hmem).2.1.1.1 rfl

/-- Facets can be written behind a table name. -/
theorem isBaseName (h : IsTableName base) : IsBaseName base where
  opening hmem := (h.plain '(' hmem).2.1.2.1 rfl
  trimmed := trim_of_forall fun c hc => (h.plain c hc).1
  notArray := dropIgnoringCase_eq_none_of_not_mem (by decide) h.not_mem
  notStruct := dropIgnoringCase_eq_none_of_not_mem (by decide) h.not_mem

end IsTableName

/-! ## Facets -/

section Facets

variable {base : List Char} (hbase : IsTableName base)

include hbase

/-- A table name without a scale is a single word. -/
theorem isBlank_withFacets (precision : Option UInt32) :
    ∀ c ∈ withFacets base precision none, isBlank c = false := by
  cases precision with
  | none => exact fun c hc => (hbase.plain c hc).1
  | some p =>
    intro c hc
    simp only [withFacets, List.mem_append, List.mem_cons, List.not_mem_nil, or_false] at hc
    rcases hc with (hc | rfl | hc) | rfl
    · exact (hbase.plain c hc).1
    · rfl
    · exact (plain_of_mem_decimal c hc).1
    · rfl

/-- A table name with facets starts with a character of the name. -/
theorem exists_cons_withFacets (precision scale : Option UInt32) :
    ∃ c rest, withFacets base precision scale = c :: rest ∧ c ∈ base := by
  obtain ⟨c, rest, rfl⟩ := List.exists_cons_of_ne_nil hbase.chars.1
  rcases precision with _ | p <;> rcases scale with _ | s <;>
    exact ⟨c, _, rfl, List.mem_cons_self ..⟩

/-- Every scan passes through a table name with facets. -/
theorem passes_withFacets (precision scale : Option UInt32) :
    Passes 0 (withFacets base precision scale) := by
  have hname : Passes 0 base := .of_forall fun c hc => (hbase.plain c hc).2.1
  have hdigits (n : Nat) : Passes 1 (decimal n) := .of_forall fun c hc =>
    (plain_of_mem_decimal c hc).2.1
  cases precision with
  | none => exact hname
  | some p =>
    cases scale with
    | none => simpa [withFacets] using hname.append (hdigits p.toNat).parentheses
    | some s =>
      have hblank : Passes 1 [' '] := .char (by decide) (by decide)
      have hpair := (hdigits p.toNat).append (Passes.comma.append (hblank.append (hdigits s.toNat)))
      simpa [withFacets] using hname.append hpair.parentheses

/-- A table name with facets stands for one type wherever it is put. -/
theorem selfContained_withFacets (precision scale : Option UInt32) :
    SelfContained (withFacets base precision scale) where
  passes := passes_withFacets hbase precision scale
  ne_nil := by
    obtain ⟨c, rest, hcons, -⟩ := exists_cons_withFacets hbase precision scale
    rw [hcons]
    exact List.cons_ne_nil c rest
  trimmed := hbase.isBaseName.trim_withFacets precision scale

end Facets

end TypedSql.StoreType
