import TypedSql.Proofs.Text.Trimmed
import TypedSql.StoreType.Composite

/-!
# Parts of composite store types

The types that an array or a struct is taken apart into have no blanks at their ends and are not
empty, whatever text they were read from.
-/

namespace TypedSql.StoreType

open Text

/-- The types that a composite type is made of. -/
def Composite.types : Composite → List (List Char)
  | .array element => [element]
  | .struct tokens => tokens.map (·.type)

/-- A text without blanks at its ends that is not empty. -/
structure Solid (t : List Char) : Prop where
  ne_nil : t ≠ []
  trimmed : trim t = t

/-- What trimming leaves is empty or solid. -/
theorem solid_trim {s : List Char} (h : trim s ≠ []) : Solid (trim s) := ⟨h, trim_trim s⟩

/-- What stands behind a blank in a trimmed text is not blank itself. -/
theorem trim_ne_nil_of_splitFirst {s name type : List Char} (hs : trimEnd s = s)
    (h : splitFirst isBlank s = some (name, type)) : trim type ≠ [] := by
  intro hblank
  obtain ⟨c, hc, -, rfl⟩ := splitFirst_eq_some_iff.mp h
  rw [trimEnd_append_blanks (List.forall_mem_cons.mpr ⟨hc, trim_eq_nil_iff.mp hblank⟩)] at hs
  -- the blanks would have been trimmed away
  have hle := length_trimEnd_le name
  rw [hs, List.length_append, List.length_cons] at hle
  omega

/-- The type of a field is solid. -/
theorem solid_of_fieldToken? {piece : List Char} {token : FieldToken}
    (h : fieldToken? piece = some token) : Solid token.type := by
  have hpiece := trim_trim piece
  unfold fieldToken? at h
  split at h
  next => cases h
  next c rest htrim =>
    rw [htrim] at hpiece
    have hwhole : Solid (c :: rest) := ⟨List.cons_ne_nil c rest, hpiece⟩
    split at h
    next =>
      split at h
      next => cases h
      next name after _ =>
        split at h
        next => cases h
        next hne =>
          cases h
          exact solid_trim (by simpa using hne)
    next =>
      split at h
      next =>
        cases h
        exact hwhole
      next =>
        split at h
        next name type hsplit =>
          cases h
          exact solid_trim (trim_ne_nil_of_splitFirst (trimEnd_of_trim hpiece) hsplit)
        next =>
          cases h
          exact hwhole

/-- The types of the fields between the brackets of a struct type are solid. -/
theorem solid_of_fields? {inner : List Char} {tokens : List FieldToken}
    (h : fields? inner = some tokens) : ∀ token ∈ tokens, Solid token.type := by
  unfold fields? at h
  split at h
  next =>
    cases h
    exact fun _ ht => absurd ht List.not_mem_nil
  next =>
    obtain ⟨pieces, -, htokens⟩ := Option.bind_eq_some_iff.mp h
    clear h
    induction pieces generalizing tokens with
    | nil =>
      cases htokens
      exact fun _ ht => absurd ht List.not_mem_nil
    | cons piece rest ih =>
      simp only [List.mapM_cons, Option.bind_eq_bind, Option.bind_eq_some_iff, Option.pure_def,
        Option.some.injEq] at htokens
      obtain ⟨token, htoken, others, hothers, rfl⟩ := htokens
      exact List.forall_mem_cons.mpr ⟨solid_of_fieldToken? htoken, ih hothers⟩

/-- The types that an array or a struct is taken apart into are solid. -/
theorem solid_of_parse? {s : List Char} {composite : Composite} (h : parse? s = some composite) :
    ∀ t ∈ composite.types, Solid t := by
  unfold parse? at h
  split at h
  next inner _ =>
    obtain ⟨tokens, htokens, rfl⟩ := Option.map_eq_some_iff.mp h
    exact List.forall_mem_map.mpr (solid_of_fields? htokens)
  next =>
    split at h
    next inner _ =>
      split at h
      next => cases h
      next hne =>
        cases h
        exact List.forall_mem_singleton.mpr (solid_trim (by simpa using hne))
    next => cases h

end TypedSql.StoreType
