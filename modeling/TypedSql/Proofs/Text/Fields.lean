import Mathlib.Algebra.Group.Nat.Defs
import TypedSql.Proofs.StoreType.TableName

/-!
# Fields of a text

Readers that take a text apart from the left, field by field, and what it means that a reader takes
a text for a value: it does so whatever follows, and leaves just that. A number padded with zeros
to the width of its field is read back.
-/

namespace TypedSql

open Numeral

/-- A reader of the beginning of a text. -/
abbrev Reader := StateT (List Char) Option

namespace Reader

variable {α β : Type}

/-! ## Readers -/

/-- One character that must stand there. -/
def mark (c : Char) : Reader Unit
  | [] => none
  | d :: rest => if d = c then some ((), rest) else none

/-- Characters that must stand there. -/
def word : List Char → Reader Unit
  | [] => pure ()
  | c :: rest => do
    mark c
    word rest

/-- A number in a field of fixed width. -/
def digits (width : Nat) : Reader Nat := fun s =>
  if width ≤ s.length then (natural? (s.take width)).map fun n => (n, s.drop width) else none

/-- A number of any width up to a character, which is read as well. -/
def digitsUpTo (stop : Char) : Reader Nat := fun s =>
  let field := s.takeWhile (· != stop)
  if field.length < s.length then
    (natural? field).map fun n => (n, s.drop (field.length + 1))
  else none

/-- What a reader takes a whole text for. -/
def whole? (p : Reader α) (s : List Char) : Option α :=
  match p.run s with
  | some (a, []) => some a
  | _ => none

/-! ## What is read -/

/-- `Reads p s a`: the reader takes the text for the value, whatever follows. -/
def Reads (p : Reader α) (s : List Char) (a : α) : Prop :=
  ∀ rest, p.run (s ++ rest) = some (a, rest)

variable {p : Reader α} {s t : List Char} {a : α} {b : β}

theorem reads_pure (a : α) : Reads (pure a) [] a := fun _ => rfl

/-- One text after another is read by one reader after another. -/
theorem Reads.bind {f : α → Reader β} (hs : Reads p s a) (ht : Reads (f a) t b) :
    Reads (p >>= f) (s ++ t) b := by
  intro rest
  rw [StateT.run_bind, List.append_assoc, hs (t ++ rest)]
  exact ht rest

/-- A value made of what is read. -/
theorem Reads.map (h : Reads p s a) (f : α → β) : Reads (f <$> p) s (f a) := by
  intro rest
  rw [StateT.run_map, h rest]
  rfl

/-- A text read at the end is read as a whole. -/
theorem Reads.whole? (h : Reads p s a) : p.whole? s = some a := by
  have hrun := h []
  rw [List.append_nil] at hrun
  rw [Reader.whole?, hrun]

theorem reads_mark (c : Char) : Reads (mark c) [c] () := by
  intro rest
  exact if_pos rfl

theorem reads_word (s : List Char) : Reads (word s) s () := by
  induction s with
  | nil => exact reads_pure ()
  | cons c s ih => exact (reads_mark c).bind ih

/-- Characters that do not stand there are not read. -/
theorem run_word_of_not_prefix {s t : List Char} (h : ¬s <+: t) : (word s).run t = none := by
  induction s generalizing t with
  | nil => exact absurd List.nil_prefix h
  | cons c s ih =>
    cases t with
    | nil => rfl
    | cons d t =>
      rw [List.cons_prefix_cons, not_and] at h
      by_cases hd : d = c
      · have hmark : (mark c).run (d :: t) = some ((), t) := if_pos hd
        rw [word, StateT.run_bind, hmark]
        exact ih (h hd.symm)
      · have hmark : (mark c).run (d :: t) = none := if_neg hd
        rw [word, StateT.run_bind, hmark]
        rfl

/-- A text is read by the first of two readers. -/
theorem Reads.orElse_left (h : Reads p s a) (q : Reader α) : Reads (p <|> q) s a := by
  intro rest
  change (p.run (s ++ rest) <|> q.run (s ++ rest)) = _
  rw [h rest]
  rfl

/-- A text that the first of two readers does not read is read by the second. -/
theorem Reads.orElse_right {q : Reader α} (h : Reads q s a)
    (hp : ∀ rest, p.run (s ++ rest) = none) : Reads (p <|> q) s a := by
  intro rest
  change (p.run (s ++ rest) <|> q.run (s ++ rest)) = _
  rw [hp rest, h rest]
  rfl

/-! ## Numbers -/

/-- A text of digits. -/
def Digits (s : List Char) : Prop := ∀ c ∈ s, c.isDigit = true

theorem digits_decimal (n : Nat) : Digits (decimal n) :=
  fun _ hc => Nat.isDigit_of_mem_toDigits (by decide) (by decide) hc

theorem digits_zeros (n : Nat) : Digits (List.replicate n '0') := by
  intro c hc
  obtain rfl := List.eq_of_mem_replicate hc
  rfl

theorem Digits.append (hs : Digits s) (ht : Digits t) : Digits (s ++ t) :=
  List.forall_mem_append.mpr ⟨hs, ht⟩

theorem digits_padded (width n : Nat) : Digits (padded width n) :=
  (digits_zeros _).append (digits_decimal n)

/-- Signs, points and letters are no digits. -/
theorem Digits.not_mem (h : Digits s) {c : Char} (hc : c.isDigit = false) : c ∉ s := by
  intro hmem
  simp [h c hmem] at hc

theorem Digits.head?_ne (h : Digits s) {c : Char} (hc : c.isDigit = false) : s.head? ≠ some c :=
  fun hhead => h.not_mem hc (List.mem_of_head? hhead)

/-- A text up to a character that it does not have. -/
theorem takeWhile_of_not_mem {c : Char} (h : c ∉ s) (rest : List Char) :
    (s ++ c :: rest).takeWhile (· != c) = s := by
  rw [List.takeWhile_append_of_pos, List.takeWhile_cons_of_neg (by simp), List.append_nil]
  intro d hd
  simp only [bne_iff_ne, ne_eq]
  rintro rfl
  exact h hd

/-- A padded number is at least as wide as its field. -/
theorem length_padded (width n : Nat) : (padded width n).length = max width (decimal n).length := by
  simp only [padded, padLeft, List.length_append, List.length_replicate]
  omega

/-- A number that fits its field fills it. -/
theorem length_padded_of_lt {width n : Nat} (hwidth : 0 < width) (h : n < 10 ^ width) :
    (padded width n).length = width := by
  have hdigits : (decimal n).length ≤ width :=
    (Nat.length_toDigits_le_iff (by decide) hwidth).mpr h
  rw [length_padded]
  omega

/-- A padded number is not empty. -/
theorem padded_ne_nil {width n : Nat} : padded width n ≠ [] :=
  List.append_ne_nil_of_right_ne_nil _ Nat.toDigits_ne_nil

/-- Zeros in front of a number do not change what it is read as. -/
theorem natural?_padded (width n : Nat) : natural? (padded width n) = some n := by
  rw [StoreType.natural?_of_digits padded_ne_nil (digits_padded width n), padded, padLeft,
    Nat.ofDigitChars_append, Nat.ofDigitChars_replicate_zero, Nat.mul_zero, decimal,
    Nat.ofDigitChars_ten_toDigits]

/-- A number that fits its field is read back from it. -/
theorem reads_digits {width n : Nat} (hwidth : 0 < width) (h : n < 10 ^ width) :
    Reads (digits width) (padded width n) n := by
  intro rest
  have hlength := length_padded_of_lt hwidth h
  change (if width ≤ (padded width n ++ rest).length then _ else none) = _
  rw [if_pos (by simp [hlength]), List.take_left' hlength, List.drop_left' hlength,
    natural?_padded]
  rfl

/-- A number of any width is read back up to a character that is no digit. -/
theorem reads_digitsUpTo (width n : Nat) {stop : Char} (hstop : stop.isDigit = false) :
    Reads (digitsUpTo stop) (padded width n ++ [stop]) n := by
  intro rest
  have hfield : (padded width n ++ [stop] ++ rest).takeWhile (· != stop) = padded width n := by
    rw [List.append_assoc]
    exact takeWhile_of_not_mem ((digits_padded width n).not_mem hstop) rest
  change (if ((padded width n ++ [stop] ++ rest).takeWhile (· != stop)).length < _
    then _ else none) = _
  rw [hfield, if_pos (by simp), List.drop_left' (by simp), natural?_padded]
  rfl

end Reader

end TypedSql
