import TypedSql.Proofs.StoreType.TableName

/-!
# Types of anonymous fields

A struct type can be written from types alone, without names. Every type that is written from table
names comes back as it was, except one that shows a scale: the blank between precision and scale
is taken for the end of a name.
-/

namespace TypedSql.StoreType

open Text Numeral

-- A condition on all characters of a text is decided character by character.
attribute [local instance (high)] List.decidableBAll

/-- The types that are written from table names with facets, and from each other. -/
inductive Written : List Char → Prop
  | scalar {base : List Char} (h : IsTableName base) (precision scale : Option UInt32) :
      Written (withFacets base precision scale)
  | array {element : List Char} (h : Written element) : Written (arrayOf element)
  | struct {fields : List (List Char × List Char)} (h : ∀ f ∈ fields, Written f.2) :
      Written (structOf fields)

/-- A table name with a precision and a scale. -/
def ShowsScale (t : List Char) : Prop :=
  ∃ base precision scale, IsTableName base ∧ t = withFacets base (some precision) (some scale)

/-- The field that a type is read as when no name stands in front of it. -/
def bareToken (t : List Char) : FieldToken := (fieldToken? t).getD ⟨[], t⟩

/-! ## Scalars -/

section Scalar

variable {base : List Char} (hbase : IsTableName base)

include hbase

/-- A table name without a scale is read as a type when no name stands in front of it. -/
theorem nameless_withFacets (precision : Option UInt32) :
    Nameless (withFacets base precision none) where
  toSelfContained := selfContained_withFacets hbase precision none
  unquoted := by
    obtain ⟨c, rest, hcons, hc⟩ := exists_cons_withFacets hbase precision none
    rw [hcons, List.head?_cons]
    exact fun hquote => (hbase.plain c hc).2.1.1.2.2 (Option.some.inj hquote)
  unsplit := Or.inr (isBlank_withFacets hbase precision)

/-- A table name with a scale is read as a name, up to the comma, and a type. -/
theorem fieldToken?_scale (p s : UInt32) :
    fieldToken? (withFacets base (some p) (some s)) =
      some ⟨base ++ '(' :: decimal p.toNat ++ [','], decimal s.toNat ++ [')']⟩ := by
  obtain ⟨c, rest, hcons, hc⟩ := exists_cons_withFacets hbase (some p) (some s)
  have hquote : c ≠ backtick := (hbase.plain c hc).2.1.1.2.2
  have hsplits : withFacets base (some p) (some s) =
      base ++ '(' :: decimal p.toNat ++ [','] ++ ' ' :: (decimal s.toNat ++ [')']) := by
    simp [withFacets]
  have hname : ∀ c ∈ base ++ '(' :: decimal p.toNat ++ [','], isBlank c = false := by
    intro c hc
    simp only [List.mem_append, List.mem_cons, List.not_mem_nil, or_false] at hc
    rcases hc with (hc | rfl | hc) | rfl
    · exact (hbase.plain c hc).1
    · rfl
    · exact (plain_of_mem_decimal c hc).1
    · rfl
  have hcomposite := hbase.isBaseName.isComposite_withFacets (some p) (some s)
  have hsplit : splitFirst isBlank (withFacets base (some p) (some s)) =
      some (base ++ '(' :: decimal p.toNat ++ [','], decimal s.toNat ++ [')']) := by
    rw [hsplits]
    exact splitFirst_append hname rfl
  have htype : trim (decimal s.toNat ++ [')']) = decimal s.toNat ++ [')'] := by
    refine trim_of_forall fun d hd => ?_
    rcases List.mem_append.mp hd with hd | hd
    · exact (plain_of_mem_decimal d hd).1
    · rw [List.mem_singleton.mp hd]
      rfl
  rw [fieldToken?, hbase.isBaseName.trim_withFacets]
  rw [hcons] at hcomposite hsplit ⊢
  simp only [if_neg hquote, hcomposite, hsplit, htype]
  rfl

end Scalar

/-! ## Written types -/

/-- A type with a scale is not read as a type alone. -/
theorem ShowsScale.fieldToken?_ne {t : List Char} (h : ShowsScale t) :
    ∃ token, fieldToken? t = some token ∧ token ≠ ⟨[], t⟩ := by
  obtain ⟨base, p, s, hbase, rfl⟩ := h
  refine ⟨_, fieldToken?_scale hbase p s, fun htoken => ?_⟩
  have hname := congrArg FieldToken.name htoken
  simp at hname

/-- A type that is read as such when no name stands in front of it shows no scale. -/
theorem Nameless.not_showsScale {t : List Char} (h : Nameless t) : ¬ShowsScale t := by
  intro hscale
  obtain ⟨token, htoken, hne⟩ := hscale.fieldToken?_ne
  rw [fieldToken?_nameless h] at htoken
  exact hne (Option.some.inj htoken).symm

namespace Written

variable {t : List Char}

/-- Written types are self-contained. -/
theorem selfContained (h : Written t) : SelfContained t := by
  induction h with
  | scalar h precision scale => exact selfContained_withFacets h precision scale
  | array _ ih => exact .arrayOf (ih.passes.mono (Nat.zero_le 1))
  | struct _ ih => exact .structOf fun f hf => (ih f hf).passes.fieldText

/-- An array of a written type is read as a type when no name stands in front of it. -/
theorem nameless_array (h : Written t) : Nameless (arrayOf t) :=
  .arrayOf (h.selfContained.passes.mono (Nat.zero_le 1))

/-- A struct of written types is read as a type when no name stands in front of it. -/
theorem nameless_struct {fields : List (List Char × List Char)} (h : ∀ f ∈ fields, Written f.2) :
    Nameless (structOf fields) :=
  .structOf fun f hf => (h f hf).selfContained.passes

/-- A written type shows a scale, or it is read as a type when no name stands in front of it. -/
theorem showsScale_or_nameless (h : Written t) : ShowsScale t ∨ Nameless t := by
  cases h with
  | @scalar base h precision scale =>
    cases scale with
    | none => exact Or.inr (nameless_withFacets h precision)
    | some s =>
      cases precision with
      | none => exact Or.inr (nameless_withFacets h none)
      | some p => exact Or.inl ⟨base, p, s, h, rfl⟩
  | array h => exact Or.inr h.nameless_array
  | struct h => exact Or.inr (nameless_struct h)

/-- A written type is read as a field. -/
theorem fieldToken?_eq (h : Written t) : fieldToken? t = some (bareToken t) := by
  rcases h.showsScale_or_nameless with hscale | hnameless
  · obtain ⟨token, htoken, -⟩ := hscale.fieldToken?_ne
    rw [bareToken, htoken, Option.getD_some]
  · rw [bareToken, fieldToken?_nameless hnameless, Option.getD_some]

/-- A written type is read as a type alone when it shows no scale. -/
theorem bareToken_eq_iff (h : Written t) : bareToken t = ⟨[], t⟩ ↔ ¬ShowsScale t := by
  rcases h.showsScale_or_nameless with hscale | hnameless
  · obtain ⟨token, htoken, hne⟩ := hscale.fieldToken?_ne
    rw [bareToken, htoken, Option.getD_some]
    exact iff_of_false hne fun hno => hno hscale
  · rw [bareToken, fieldToken?_nameless hnameless, Option.getD_some]
    exact iff_of_true rfl hnameless.not_showsScale

end Written

/-- A struct written from types without names is read back as the fields that each of them is read
as. -/
theorem parse?_anonymous {types : List (List Char)} (h : ∀ t ∈ types, Written t) :
    parse? (structOf (types.map fun t => ([], t))) = some (.struct (types.map bareToken)) := by
  have hwritten : ∀ f ∈ types.map fun t => (([] : List Char), t), f.1 = [] ∧ Written f.2 := by
    intro f hf
    obtain ⟨t, ht, rfl⟩ := List.mem_map.mp hf
    exact ⟨rfl, h t ht⟩
  have hread : ∀ f ∈ types.map fun t => (([] : List Char), t),
      fieldToken? (fieldText f.1 f.2) = some (bareToken f.2) := by
    rintro ⟨name, t⟩ hf
    obtain ⟨rfl, ht⟩ := hwritten _ hf
    exact ht.fieldToken?_eq
  rw [parse?_structOf (fun f hf => (hwritten f hf).2.selfContained.passes) hread, List.map_map]
  rfl

/-- A struct written from types without names is read back as these types without names exactly
when none of them shows a scale. -/
theorem parse?_anonymous_iff {types : List (List Char)} (h : ∀ t ∈ types, Written t) :
    parse? (structOf (types.map fun t => ([], t))) =
        some (.struct (types.map fun t => ⟨[], t⟩)) ↔
      ∀ t ∈ types, ¬ShowsScale t := by
  rw [parse?_anonymous h, Option.some.injEq, Composite.struct.injEq, List.map_inj_left]
  exact forall₂_congr fun t ht => (h t ht).bareToken_eq_iff

/-- A size comes back, and so does a scale that stands inside an array or a struct. -/
theorem parse?_anonymous_iff_nested :
    let types := ["STRING(5)".toList, arrayOf "NUMERIC(10, 2)".toList,
      structOf [([], "BIGNUMERIC(40, 5)".toList), ("order".toList, arrayOf "bool".toList)]]
    (∀ t ∈ types, Written t) ∧ (∀ t ∈ types, ¬ShowsScale t) ∧
      parse? (structOf (types.map fun t => ([], t))) =
        some (.struct (types.map fun t => ⟨[], t⟩)) := by
  intro types
  have hsize : IsTableName "STRING".toList := by decide
  have hscale : Written "NUMERIC(10, 2)".toList :=
    @Written.scalar "NUMERIC".toList (by decide) (some 10) (some 2)
  have hbig : Written "BIGNUMERIC(40, 5)".toList :=
    @Written.scalar "BIGNUMERIC".toList (by decide) (some 40) (some 5)
  have hbool : Written "bool".toList := @Written.scalar "bool".toList (by decide) none none
  have hfields : ∀ f ∈ [([], "BIGNUMERIC(40, 5)".toList), ("order".toList, arrayOf "bool".toList)],
      Written f.2 := by
    simp only [List.forall_mem_cons]
    exact ⟨hbig, .array hbool, by simp⟩
  have hwritten : ∀ t ∈ types, Written t := by
    simp only [types, List.forall_mem_cons]
    exact ⟨.scalar hsize (some 5) none, .array hscale, .struct hfields, by simp⟩
  have hshows : ∀ t ∈ types, ¬ShowsScale t := by
    simp only [types, List.forall_mem_cons]
    exact ⟨(nameless_withFacets hsize (some 5)).not_showsScale,
      hscale.nameless_array.not_showsScale, (Written.nameless_struct hfields).not_showsScale,
      by simp⟩
  exact ⟨hwritten, hshows, (parse?_anonymous_iff hwritten).mpr hshows⟩

/-- A decimal with a scale is read as a field with a name. -/
theorem exists_parse?_anonymous_ne :
    ∃ t, Written t ∧ t = "NUMERIC(10, 2)".toList ∧
      parse? (structOf [([], t)]) =
        some (.struct [⟨"NUMERIC(10,".toList, "2)".toList⟩]) ∧
      parse? (structOf [([], t)]) ≠ some (.struct [⟨[], t⟩]) :=
  ⟨_, @Written.scalar "NUMERIC".toList (by decide) (some 10) (some 2), by decide, by decide,
    by decide⟩

end TypedSql.StoreType
