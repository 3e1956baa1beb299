/-!
# Blank characters

Trimming and splitting of text at blank characters. Blank means the Unicode property
White_Space, so a no-break space counts and a zero-width space does not.
-/

namespace TypedSql.Text

/-- The characters with the Unicode property White_Space. -/
def isBlank (c : Char) : Bool :=
  let n := c.toNat
  (9 ≤ n && n ≤ 13) || n == 0x20 || n == 0x85 || n == 0xA0 || n == 0x1680 ||
    (0x2000 ≤ n && n ≤ 0x200A) || n == 0x2028 || n == 0x2029 || n == 0x202F ||
    n == 0x205F || n == 0x3000

/-- Text without its leading blanks. -/
def trimStart (s : List Char) : List Char := s.dropWhile isBlank

/-- Text without its trailing blanks. -/
def trimEnd : List Char → List Char
  | [] => []
  | c :: r =>
    match trimEnd r with
    | [] => if isBlank c then [] else [c]
    | kept => c :: kept

/-- Text without blanks at either end. -/
def trim (s : List Char) : List Char := trimEnd (trimStart s)

/-- The text before and after the first character satisfying `p`. -/
def splitFirst (p : Char → Bool) : List Char → Option (List Char × List Char)
  | [] => none
  | c :: r =>
    if p c then some ([], r)
    else (splitFirst p r).map fun (before, after) => (c :: before, after)

/-- Dropping leading blanks makes no text longer. -/
theorem length_trimStart_le (s : List Char) : (trimStart s).length ≤ s.length :=
  (List.dropWhile_suffix isBlank).length_le

/-- Dropping trailing blanks makes no text longer. -/
theorem length_trimEnd_le (s : List Char) : (trimEnd s).length ≤ s.length := by
  induction s with
  | nil => simp [trimEnd]
  | cons c r ih =>
    unfold trimEnd
    split
    · split <;> simp
    · next kept _ => simpa using ih

/-- Trimming makes no text longer. -/
theorem length_trim_le (s : List Char) : (trim s).length ≤ s.length :=
  Nat.le_trans (length_trimEnd_le _) (length_trimStart_le s)

/-- The two parts and the separator make up the text again. -/
theorem splitFirst_length {p : Char → Bool} {s before after : List Char}
    (h : splitFirst p s = some (before, after)) : before.length + after.length + 1 = s.length := by
  induction s generalizing before after with
  | nil => simp [splitFirst] at h
  | cons c r ih =>
    unfold splitFirst at h
    split at h
    · simp only [Option.some.injEq, Prod.mk.injEq] at h
      simp [← h.1, ← h.2]
    · obtain ⟨⟨b, a⟩, hr, he⟩ := Option.map_eq_some_iff.1 h
      simp only [Prod.mk.injEq] at he
      have := ih hr
      simp only [← he.1, ← he.2, List.length_cons]
      omega

end TypedSql.Text
