import TypedSql.Text.Blank

/-!
# Trimmed text

Text that trimming leaves alone: it neither starts nor ends with a blank. Putting two trimmed texts
around anything gives a trimmed text again.
-/

namespace TypedSql.Text

variable {c : Char} {s t : List Char}

/-- A leading blank is trimmed away. -/
theorem trim_cons_blank (h : isBlank c = true) : trim (c :: s) = trim s := by
  rw [trim, trim, trimStart, trimStart, List.dropWhile_cons_of_pos h]

/-- Text that starts with no blank has nothing to trim at its start. -/
theorem trimStart_cons (h : isBlank c = false) : trimStart (c :: s) = c :: s :=
  List.dropWhile_cons_of_neg (by simp [h])

/-- Trimming at the end keeps a first character that is no blank. -/
theorem trimEnd_cons_ne_nil (h : isBlank c = false) : trimEnd (c :: s) ≠ [] := by
  rw [trimEnd]
  split <;> simp [h]

/-- Text that starts with no blank does not trim to nothing. -/
theorem trim_cons_ne_nil (h : isBlank c = false) : trim (c :: s) ≠ [] := by
  rw [trim, trimStart_cons h]
  exact trimEnd_cons_ne_nil h

/-- Only blanks trim to nothing. -/
theorem trim_eq_nil_iff : trim s = [] ↔ ∀ c ∈ s, isBlank c = true := by
  induction s with
  | nil => simp [trim, trimStart, trimEnd]
  | cons c rest ih =>
    cases hc : isBlank c with
    | true => rw [trim_cons_blank hc, ih, List.forall_mem_cons, and_iff_right hc]
    | false =>
      refine iff_of_false (trim_cons_ne_nil hc) fun h => ?_
      simp [h c (List.mem_cons_self ..)] at hc

/-- What stands in front of text without trailing blanks is kept. -/
theorem trimEnd_append (ht : t ≠ []) (h : trimEnd t = t) : trimEnd (s ++ t) = s ++ t := by
  induction s with
  | nil => exact h
  | cons c rest ih =>
    rw [List.cons_append, trimEnd, ih]
    split
    next hnil => exact absurd (List.append_eq_nil_iff.mp hnil).2 ht
    next => rfl

/-- Trimmed text has nothing to trim at its start. -/
theorem trimStart_of_trim (h : trim s = s) : trimStart s = s := by
  refine (List.dropWhile_suffix isBlank).eq_of_length_le ?_
  calc s.length = (trimEnd (trimStart s)).length := congrArg List.length h.symm
    _ ≤ (trimStart s).length := length_trimEnd_le _

/-- Trimmed text has nothing to trim at its end. -/
theorem trimEnd_of_trim (h : trim s = s) : trimEnd s = s := by
  have hstart := trimStart_of_trim h
  rwa [trim, hstart] at h

/-- Text that starts with no blank and ends in trimmed text is trimmed. -/
theorem trim_cons_append (hc : isBlank c = false) (ht : t ≠ []) (h : trim t = t) :
    trim (c :: s ++ t) = c :: s ++ t := by
  have hend := trimEnd_append (s := c :: s) ht (trimEnd_of_trim h)
  rw [trim, List.cons_append, trimStart_cons hc, ← List.cons_append, hend]

/-- A character is trimmed away at the end when it is a blank and all after it are. -/
theorem trimEnd_cons : trimEnd (c :: s) =
    if trimEnd s = [] ∧ isBlank c = true then [] else c :: trimEnd s := by
  rw [trimEnd]
  cases trimEnd s with
  | nil => cases isBlank c <;> rfl
  | cons => simp

/-- Trimming at the end leaves the start of a text. -/
theorem isPrefix_trimEnd (s : List Char) : trimEnd s <+: s := by
  induction s with
  | nil => exact List.prefix_rfl
  | cons c rest ih =>
    rw [trimEnd_cons]
    split
    next => exact List.nil_prefix
    next => exact List.cons_prefix_cons.mpr ⟨rfl, ih⟩

/-- Trimming leaves a part of a text. -/
theorem isInfix_trim (s : List Char) : trim s <:+: s :=
  (isPrefix_trimEnd _).isInfix.trans (List.dropWhile_suffix isBlank).isInfix

/-- Trimming twice at the end does no more than trimming once. -/
theorem trimEnd_trimEnd (s : List Char) : trimEnd (trimEnd s) = trimEnd s := by
  induction s with
  | nil => rfl
  | cons c rest ih =>
    rw [trimEnd_cons]
    split
    next => rfl
    next h => rw [trimEnd_cons, ih, if_neg h]

/-- What is left after trimming at the start begins with no blank. -/
theorem isBlank_of_trimStart (h : trimStart s = c :: t) : isBlank c = false := by
  induction s with
  | nil => cases h
  | cons first rest ih =>
    rw [trimStart, List.dropWhile_cons] at h
    split at h
    next => exact ih h
    next hfirst =>
      cases h
      simpa using hfirst

/-- Trimming twice does no more than trimming once. -/
theorem trim_trim (s : List Char) : trim (trim s) = trim s := by
  have hend : trimEnd (trim s) = trim s := trimEnd_trimEnd (trimStart s)
  cases hstart : trimStart s with
  | nil =>
    have htrim : trim s = [] := by rw [trim, hstart, trimEnd]
    rw [htrim]
    rfl
  | cons c rest =>
    have hc := isBlank_of_trimStart hstart
    have htrim : trim s = c :: trimEnd rest := by
      rw [trim, hstart, trimEnd_cons, if_neg (by simp [hc])]
    rw [htrim] at hend ⊢
    rw [trim, trimStart_cons hc, hend]

/-- The start of trimmed text has blanks at its end only. -/
theorem trim_trimEnd_of_isPrefix (ht : trim t = t) (h : s <+: t) :
    trim (trimEnd s) = trimEnd s := by
  cases s with
  | nil => rfl
  | cons c rest =>
    obtain ⟨rest', rfl⟩ := h
    have hc : isBlank c = false := isBlank_of_trimStart (trimStart_of_trim ht)
    have hcons : trimEnd (c :: rest) = c :: trimEnd rest := by
      rw [trimEnd_cons, if_neg (by simp [hc])]
    rw [trim, hcons, trimStart_cons hc, ← hcons, trimEnd_trimEnd]

/-- Blanks at the end are trimmed away. -/
theorem trimEnd_append_blanks (ht : ∀ c ∈ t, isBlank c = true) :
    trimEnd (s ++ t) = trimEnd s := by
  have hnil : trimEnd t = [] := by
    induction t with
    | nil => rfl
    | cons c rest ih =>
      obtain ⟨hc, hrest⟩ := List.forall_mem_cons.mp ht
      rw [trimEnd_cons, if_pos ⟨ih hrest, hc⟩]
  induction s with
  | nil => exact hnil
  | cons c rest ih => rw [List.cons_append, trimEnd_cons, ih, trimEnd_cons]

/-- Text without blanks is trimmed. -/
theorem trim_of_forall (h : ∀ c ∈ s, isBlank c = false) : trim s = s := by
  have hend : trimEnd s = s := by
    induction s with
    | nil => rfl
    | cons c rest ih =>
      obtain ⟨hc, hrest⟩ := List.forall_mem_cons.mp h
      rw [trimEnd, ih hrest]
      cases rest <;> simp [hc]
  cases s with
  | nil => rfl
  | cons c rest => rw [trim, trimStart_cons (h c (List.mem_cons_self ..)), hend]

/-- A text is split at the first character that is searched for. -/
theorem splitFirst_append {p : Char → Bool} (hs : ∀ c ∈ s, p c = false) (hc : p c = true) :
    splitFirst p (s ++ c :: t) = some (s, t) := by
  induction s with
  | nil => simp [splitFirst, hc]
  | cons first rest ih =>
    obtain ⟨hfirst, hrest⟩ := List.forall_mem_cons.mp hs
    simp [splitFirst, hfirst, ih hrest]

/-- The parts of a text that is split stand around the first of what was searched for. -/
theorem splitFirst_eq_some_iff {p : Char → Bool} {before after : List Char} :
    splitFirst p s = some (before, after) ↔
      ∃ c, p c = true ∧ (∀ d ∈ before, p d = false) ∧ s = before ++ c :: after := by
  constructor
  · intro h
    induction s generalizing before with
    | nil => cases h
    | cons first rest ih =>
      rw [splitFirst] at h
      split at h
      next hfirst =>
        cases h
        exact ⟨first, hfirst, List.forall_mem_nil _, rfl⟩
      next hfirst =>
        obtain ⟨⟨b, a⟩, hrest, he⟩ := Option.map_eq_some_iff.mp h
        cases he
        obtain ⟨c, hc, hb, rfl⟩ := ih hrest
        exact ⟨c, hc, List.forall_mem_cons.mpr ⟨by simpa using hfirst, hb⟩, rfl⟩
  · rintro ⟨c, hc, hbefore, rfl⟩
    exact splitFirst_append hbefore hc

/-- A text is not split exactly when nothing in it is searched for. -/
theorem splitFirst_eq_none {p : Char → Bool} : splitFirst p s = none ↔ ∀ c ∈ s, p c = false := by
  induction s with
  | nil => simp [splitFirst]
  | cons first rest ih => cases hfirst : p first <;> simp [splitFirst, hfirst, ih]

end TypedSql.Text
