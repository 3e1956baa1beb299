import TypedSql.StoreType.Name
import TypedSql.Text.Quoted

/-!
# Composite store types

Array and struct types taken apart one level deep. Brackets and commas inside backtick-quoted
names do not count. The main statements bound the parts: every part is shorter than the whole.
-/

namespace TypedSql.StoreType

open Text

/-- Where a scan stands with respect to backtick-quoted names. -/
inductive Scan where
  | plain
  | quoted
  | escaped
deriving DecidableEq, Repr

namespace Scan

/-- The state after one more character. -/
def next : Scan → Char → Scan
  | .plain, c => if c = backtick then .quoted else .plain
  | .quoted, c => if c = '\\' then .escaped else if c = backtick then .plain else .quoted
  | .escaped, _ => .quoted

/-- Whether a character stands outside quoted names and is no quote itself. -/
def shows (s : Scan) (c : Char) : Bool := s == .plain && c != backtick

end Scan

/-- The text before and after the bracket that closes the one already open.

`depth` counts the brackets opened since. -/
def closeBracket? : Scan → Nat → List Char → Option (List Char × List Char)
  | _, _, [] => none
  | scan, depth, c :: rest =>
    if scan.shows c && c == '>' then
      match depth with
      | 0 => some ([], rest)
      | depth + 1 =>
        (closeBracket? .plain depth rest).map fun (before, after) => (c :: before, after)
    else
      let depth := if scan.shows c && c == '<' then depth + 1 else depth
      (closeBracket? (scan.next c) depth rest).map fun (before, after) => (c :: before, after)

/-- The text between `head` and the bracket that closes it, which has to end the whole. -/
def content? (head s : List Char) : Option (List Char) :=
  match dropIgnoringCase head s with
  | none => none
  | some rest =>
    match closeBracket? .plain 0 rest with
    | some (inner, []) => some inner
    | _ => none

/-- A character in front of the first piece. -/
def prepend (c : Char) : List (List Char) → List (List Char)
  | [] => [[c]]
  | piece :: rest => (c :: piece) :: rest

/-- The pieces between commas outside quotes and brackets; none when brackets do not balance. -/
def pieces? : Scan → Nat → List Char → Option (List (List Char))
  | _, depth, [] => if depth = 0 then some [[]] else none
  | scan, depth, c :: rest =>
    if scan.shows c then
      if c = '<' ∨ c = '(' then (pieces? .plain (depth + 1) rest).map (prepend c)
      else if c = '>' ∨ c = ')' then
        match depth with
        | 0 => none
        | depth + 1 => (pieces? .plain depth rest).map (prepend c)
      else if c = ',' ∧ depth = 0 then (pieces? .plain 0 rest).map ([] :: ·)
      else (pieces? .plain depth rest).map (prepend c)
    else (pieces? (scan.next c) depth rest).map (prepend c)

/-- The text before and after the backtick that ends a quoted name. -/
def closeQuote? : Scan → List Char → Option (List Char × List Char)
  | _, [] => none
  | scan, c :: rest =>
    if scan.next c = .plain then some ([], rest)
    else (closeQuote? (scan.next c) rest).map fun (name, after) => (c :: name, after)

/-- A field of a struct type: its name, empty when it has none, and its type verbatim.

A quoted name keeps its escapes. -/
structure FieldToken where
  name : List Char
  type : List Char
deriving DecidableEq, Repr

/-- Reads one field. -/
def fieldToken? (piece : List Char) : Option FieldToken :=
  match trim piece with
  | [] => none
  | c :: rest =>
    if c = backtick then
      match closeQuote? .quoted rest with
      | none => none
      | some (name, after) => if (trim after).isEmpty then none else some ⟨name, trim after⟩
    else if isComposite (c :: rest) then some ⟨[], c :: rest⟩
    else
      match splitFirst isBlank (c :: rest) with
      | some (name, type) => some ⟨name, trim type⟩
      | none => some ⟨[], c :: rest⟩

/-- The fields between the brackets of a struct type. -/
def fields? (inner : List Char) : Option (List FieldToken) :=
  if (trim inner).isEmpty then some []
  else (pieces? .plain 0 inner).bind fun pieces => pieces.mapM fieldToken?

/-- A composite store type. -/
inductive Composite where
  | array (element : List Char)
  | struct (fields : List FieldToken)
deriving DecidableEq, Repr

/-- Takes a composite store type apart; none for scalar and for malformed types. -/
def parse? (s : List Char) : Option Composite :=
  match content? structHead (trim s) with
  | some inner => (fields? inner).map .struct
  | none =>
    match content? arrayHead (trim s) with
    | some inner => if (trim inner).isEmpty then none else some (.array (trim inner))
    | none => none

/-! ## Parts are shorter -/

/-- The text before the bracket, the bracket and the text after make up the whole. -/
theorem closeBracket?_length {scan : Scan} {depth : Nat} {s before after : List Char}
    (h : closeBracket? scan depth s = some (before, after)) :
    before.length + after.length + 1 = s.length := by
  induction s generalizing scan depth before after with
  | nil => simp [closeBracket?] at h
  | cons c rest ih =>
    unfold closeBracket? at h
    split at h
    · split at h
      · simp only [Option.some.injEq, Prod.mk.injEq] at h
        simp [← h.1, ← h.2]
      · obtain ⟨⟨b, a⟩, hr, he⟩ := Option.map_eq_some_iff.1 h
        simp only [Prod.mk.injEq] at he
        have := ih hr
        simp only [← he.1, ← he.2, List.length_cons]
        omega
    · obtain ⟨⟨b, a⟩, hr, he⟩ := Option.map_eq_some_iff.1 h
      simp only [Prod.mk.injEq] at he
      have := ih hr
      simp only [← he.1, ← he.2, List.length_cons]
      omega

/-- The content between the brackets is shorter than the whole. -/
theorem content?_length {head s inner : List Char} (h : content? head s = some inner) :
    inner.length < s.length := by
  unfold content? at h
  split at h
  · simp at h
  · next rest hd =>
    split at h
    · next b hc =>
      simp only [Option.some.injEq] at h
      have := closeBracket?_length hc
      have hle : rest.length ≤ s.length := by
        unfold dropIgnoringCase at hd
        split at hd
        · simp only [Option.some.injEq] at hd
          rw [← hd, List.length_drop]
          exact Nat.sub_le _ _
        · simp at hd
      rw [← h]
      simp only [List.length_nil] at this
      omega
    · simp at h

/-- A character in front lengthens each piece by at most one. -/
theorem length_le_of_mem_prepend {c : Char} {n : Nat} {pieces : List (List Char)}
    (h : ∀ p ∈ pieces, p.length ≤ n) : ∀ p ∈ prepend c pieces, p.length ≤ n + 1 := by
  intro p hp
  cases pieces with
  | nil =>
    simp only [prepend, List.mem_singleton] at hp
    simp [hp]
  | cons first rest =>
    rcases List.mem_cons.1 hp with rfl | hp
    · simpa using h first (List.mem_cons_self ..)
    · exact Nat.le_succ_of_le (h p (List.mem_cons_of_mem _ hp))

/-- No piece is longer than the whole. -/
theorem pieces?_length {scan : Scan} {depth : Nat} {s : List Char} {pieces : List (List Char)}
    (h : pieces? scan depth s = some pieces) : ∀ p ∈ pieces, p.length ≤ s.length := by
  induction s generalizing scan depth pieces with
  | nil =>
    unfold pieces? at h
    split at h
    · simp only [Option.some.injEq] at h
      simp [← h]
    · simp at h
  | cons c rest ih =>
    have step {scan : Scan} {depth : Nat} {pieces : List (List Char)}
        (h : (pieces? scan depth rest).map (prepend c) = some pieces) :
        ∀ p ∈ pieces, p.length ≤ (c :: rest).length := by
      obtain ⟨ps, hr, rfl⟩ := Option.map_eq_some_iff.1 h
      exact length_le_of_mem_prepend (ih hr)
    unfold pieces? at h
    split at h
    · split at h
      · exact step h
      · split at h
        · split at h
          · simp at h
          · exact step h
        · split at h
          · obtain ⟨ps, hr, rfl⟩ := Option.map_eq_some_iff.1 h
            intro p hp
            rcases List.mem_cons.1 hp with rfl | hp
            · simp
            · exact Nat.le_succ_of_le (ih hr p hp)
          · exact step h
    · exact step h

/-- The name, its closing backtick and the text after make up the whole. -/
theorem closeQuote?_length {scan : Scan} {s name after : List Char}
    (h : closeQuote? scan s = some (name, after)) : name.length + after.length + 1 = s.length := by
  induction s generalizing scan name after with
  | nil => simp [closeQuote?] at h
  | cons c rest ih =>
    unfold closeQuote? at h
    split at h
    · simp only [Option.some.injEq, Prod.mk.injEq] at h
      simp [← h.1, ← h.2]
    · obtain ⟨⟨b, a⟩, hr, he⟩ := Option.map_eq_some_iff.1 h
      simp only [Prod.mk.injEq] at he
      have := ih hr
      simp only [← he.1, ← he.2, List.length_cons]
      omega

/-- The type of a field is no longer than the piece it was read from. -/
theorem fieldToken?_length {piece : List Char} {token : FieldToken}
    (h : fieldToken? piece = some token) : token.type.length ≤ piece.length := by
  have htrim := length_trim_le piece
  unfold fieldToken? at h
  split at h
  · simp at h
  · next c rest hp =>
    rw [hp] at htrim
    split at h
    · split at h
      · simp at h
      · next name after hq =>
        split at h
        · simp at h
        · simp only [Option.some.injEq] at h
          have h1 := closeQuote?_length hq
          have h2 := length_trim_le after
          rw [← h]
          simp only [List.length_cons] at htrim ⊢
          omega
    · split at h
      · simp only [Option.some.injEq] at h
        rw [← h]
        exact htrim
      · split at h
        · next name type hs =>
          simp only [Option.some.injEq] at h
          have h1 := splitFirst_length hs
          have h2 := length_trim_le type
          rw [← h]
          simp only [List.length_cons] at htrim h1 ⊢
          omega
        · simp only [Option.some.injEq] at h
          rw [← h]
          exact htrim

/-- The type of each field is no longer than the content of the struct. -/
theorem fields?_length {inner : List Char} {tokens : List FieldToken}
    (h : fields? inner = some tokens) : ∀ token ∈ tokens, token.type.length ≤ inner.length := by
  unfold fields? at h
  split at h
  · simp only [Option.some.injEq] at h
    simp [← h]
  · obtain ⟨pieces, hp, hm⟩ := Option.bind_eq_some_iff.1 h
    have hlen := pieces?_length hp
    clear hp h
    induction pieces generalizing tokens with
    | nil =>
      simp only [List.mapM_nil, Option.pure_def, Option.some.injEq] at hm
      simp [← hm]
    | cons piece rest ih =>
      rw [List.mapM_cons] at hm
      obtain ⟨token, ht, hm⟩ := Option.bind_eq_some_iff.1 hm
      obtain ⟨others, ho, hm⟩ := Option.bind_eq_some_iff.1 hm
      simp only [Option.pure_def, Option.some.injEq] at hm
      intro t hmem
      rw [← hm] at hmem
      rcases List.mem_cons.1 hmem with rfl | hmem
      · exact Nat.le_trans (fieldToken?_length ht) (hlen piece (List.mem_cons_self ..))
      · exact ih ho (fun p hp => hlen p (List.mem_cons_of_mem _ hp)) t hmem

/-- The element type of an array type is shorter than the whole. -/
theorem parse?_array_length {s element : List Char} (h : parse? s = some (.array element)) :
    element.length < (trim s).length := by
  unfold parse? at h
  split at h
  · obtain ⟨_, _, he⟩ := Option.map_eq_some_iff.1 h
    simp at he
  · split at h
    · next inner hc =>
      split at h
      · simp at h
      · simp only [Option.some.injEq, Composite.array.injEq] at h
        rw [← h]
        exact Nat.lt_of_le_of_lt (length_trim_le inner) (content?_length hc)
    · simp at h

/-- Every field type of a struct type is shorter than the whole. -/
theorem parse?_struct_length {s : List Char} {tokens : List FieldToken}
    (h : parse? s = some (.struct tokens)) :
    ∀ token ∈ tokens, token.type.length < (trim s).length := by
  unfold parse? at h
  split at h
  · next inner hc =>
    obtain ⟨ts, hf, he⟩ := Option.map_eq_some_iff.1 h
    simp only [Composite.struct.injEq] at he
    rw [← he]
    intro token hm
    exact Nat.lt_of_le_of_lt (fields?_length hf token hm) (content?_length hc)
  · split at h
    · split at h <;> simp at h
    · simp at h

end TypedSql.StoreType
