import TypedSql.Fault

/-!
# Messages of faults

A fault inside a context has the message of the outermost cause of the context before its own. That
is all of the context's message only if the context was not put into one itself: whatever it was
wrapped around is lost.
-/

namespace TypedSql.Fault

variable (f outer : Fault) (shared : Bool)

/-- A fault that was wrapped has its outermost cause before the others. -/
theorem message_cons {cause : Cause} {earlier : List Cause} (h : earlier ≠ []) :
    message ⟨cause, earlier⟩ =
      cause.message ++ ": " ++ ": ".intercalate (earlier.map Cause.message) :=
  String.intercalate_cons_of_ne_nil (by simpa [causes] using h)

/-- Inside a context a fault has the outermost cause of the context before its own causes, whether
the context is still in use elsewhere or not. -/
theorem message_context : (f.context outer shared).message =
    outer.cause.message ++ ": " ++ f.message := by
  have hcauses : f.causes ≠ [] := List.cons_ne_nil _ _
  cases shared <;> exact message_cons hcauses

/-- A context stands in front of the message. -/
theorem message_inside (place : Cause) :
    (f.inside place).message = place.message ++ ": " ++ f.message :=
  message_context f (of place) false

/-- Inside a context a fault has the outermost cause of the context before its own causes. This is
the whole message of the context exactly if the context has no causes beyond that one, whether it is
still in use elsewhere or not. -/
theorem message_context_iff :
    (f.context outer shared).message = outer.cause.message ++ ": " ++ f.message ∧
      ((f.context outer shared).message = outer.message ++ ": " ++ f.message ↔
        outer.earlier = []) := by
  refine ⟨message_context f outer shared, ?_⟩
  rw [message_context]
  obtain ⟨cause, earlier⟩ := outer
  cases earlier with
  | nil => exact iff_of_true rfl rfl
  | cons first rest =>
    refine iff_of_false (fun h => ?_) (List.cons_ne_nil first rest)
    -- the whole message has at least the separator more
    rw [message_cons (List.cons_ne_nil first rest)] at h
    have hlength := congrArg String.length h
    simp only [String.length_append] at hlength
    have hseparator : ": ".length = 2 := rfl
    omega

/-- A context that has been put into another one loses its own message. -/
theorem message_context_ne :
    ((of (.note "inner")).context (of (.note "outer")) false).message = "outer: inner" ∧
      ((of (.note "e")).context ((of (.note "inner")).context (of (.note "outer")) false)
        false).message = "outer: e" ∧
      "outer: e" ≠ "outer: inner" ++ ": " ++ "e" := by
  decide

end TypedSql.Fault
