import TypedSql.Proofs.Expr.Typing

/-!
# What a conversion converts to

A converted expression that had a mapping has one of the target's store type, be it its own or that
of the call or cast around it. An expression without a mapping is typed by the target and is not
converted any further, so that a node with a mapping of its own keeps that one.
-/

namespace TypedSql.Expr

variable {c : Catalog} {target : Mapping}

/-- A typed expression is left alone when it has the store type, and else takes the target. -/
theorem mapping?_convert {e : Expr} {source : Mapping} (h : e.mapping? = some source) :
    (convert c e target).mapping? =
      some (if Text.sameName source.storeType target.storeType then source else target) := by
  unfold convert
  rw [h]
  dsimp only
  split
  next => exact h
  next => cases conversionFunction? source target <;> rfl

/-- An untyped expression is typed by the target, unless it has a mapping of its own. -/
theorem mapping?_convert_untyped {e : Expr} (h : e.isTyped = false) :
    (convert c e target).mapping? = some ((ownMapping? c e).getD target) := by
  have hm : e.mapping? = none := Option.isNone_iff_eq_none.mp (Option.isSome_eq_false_iff.mp h)
  unfold convert
  rw [hm]
  exact mapping?_applyMapping h target

/-- A converted expression has a mapping, and it has the store type of the target unless the
expression is untyped and its node has a mapping of its own, with another store type. -/
theorem storeType_convert_iff (c : Catalog) (e : Expr) (target : Mapping) :
    ∃ m, (convert c e target).mapping? = some m ∧
      (Text.sameName m.storeType target.storeType = true ↔
        (e.isTyped = false → ∀ own, ownMapping? c e = some own →
          Text.sameName own.storeType target.storeType = true)) := by
  cases h : e.isTyped with
  | true =>
    obtain ⟨source, hsource⟩ := Option.isSome_iff_exists.mp h
    refine ⟨_, mapping?_convert hsource, iff_of_true ?_ nofun⟩
    split
    next hsame => exact hsame
    next => exact Text.sameName_refl _
  | false =>
    refine ⟨_, mapping?_convert_untyped h, ?_⟩
    cases hown : ownMapping? c e with
    | none => simp [Text.sameName_refl]
    | some own => simp

/-- A comparison that has not been typed is a truth value even when it is to be converted to
text. -/
theorem exists_convert_storeType_ne :
    ∃ e m, (convert default e Builtin.string.mapping).mapping? = some m ∧
      Text.sameName m.storeType Builtin.string.mapping.storeType = false :=
  ⟨.binary (.column none "a" Builtin.int64.mapping) .eq (.column none "b" Builtin.int64.mapping)
    none, Builtin.bool.mapping, mapping?_convert_untyped rfl, by decide⟩

end TypedSql.Expr
