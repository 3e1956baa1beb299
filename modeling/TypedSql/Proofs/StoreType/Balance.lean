import Mathlib.Data.List.Infix
import TypedSql.Proofs.StoreType.Scanning

/-!
# Balanced texts

What the scans of a store type go by, said without a scan: the characters of a text that stand
outside its quoted names, and counts of the brackets among them that never fall below zero. A scan
finds a closing bracket, or splits at a comma, exactly where these counts say.
-/

namespace TypedSql.StoreType

open Text

/-! ## Outside quotes -/

/-- The inside of a quoted name: a backslash protects the character behind it, and no backtick
stands unprotected. -/
inductive QuotedBody : List Char → Prop
  | nil : QuotedBody []
  | plain {c : Char} {s : List Char} (hquote : c ≠ backtick) (hescape : c ≠ '\\')
      (h : QuotedBody s) : QuotedBody (c :: s)
  | escaped {c : Char} {s : List Char} (h : QuotedBody s) : QuotedBody ('\\' :: c :: s)

/-- An escaped name is the inside of a quoted one. -/
theorem QuotedBody.escapeWith (name : List Char) : QuotedBody (escapeWith nameCode name) := by
  refine escapeWith_induction (motive := QuotedBody) .nil ?_ ?_ name
  · intro c s hc ih
    obtain ⟨hquote, hescape⟩ := nameCode_eq_none.mp hc
    exact .plain hquote hescape ih
  · intro c s ih
    exact .escaped ih

/-- `Unquoted s v`: every quoted name in a text ends, and `v` is what stands outside of them. -/
inductive Unquoted : List Char → List Char → Prop
  | nil : Unquoted [] []
  | char {c : Char} {s v : List Char} (hc : c ≠ backtick) (h : Unquoted s v) :
      Unquoted (c :: s) (c :: v)
  | name {q s v : List Char} (hq : QuotedBody q) (h : Unquoted s v) :
      Unquoted (backtick :: q ++ backtick :: s) v

/-- The same for a text at whose start a scan may stand inside a quoted name. -/
def UnquotedFrom : Scan → List Char → List Char → Prop
  | .plain, s, v => Unquoted s v
  | .quoted, s, v => ∃ q r, s = q ++ backtick :: r ∧ QuotedBody q ∧ Unquoted r v
  | .escaped, s, v => ∃ c q r, s = c :: q ++ backtick :: r ∧ QuotedBody q ∧ Unquoted r v

namespace UnquotedFrom

variable {scan : Scan} {c : Char} {s v : List Char}

/-- A text ends outside of its quoted names. -/
theorem nil_iff : UnquotedFrom scan [] v ↔ scan = .plain ∧ v = [] := by
  cases scan with
  | plain =>
    constructor
    · rintro ⟨⟩
      exact ⟨rfl, rfl⟩
    · rintro ⟨-, rfl⟩
      exact .nil
  | quoted => simp [UnquotedFrom]
  | escaped => simp [UnquotedFrom]

/-- A character that a scan sees stands outside of quotes. -/
theorem shown_iff (h : c ≠ backtick) :
    UnquotedFrom .plain (c :: s) v ↔ ∃ w, v = c :: w ∧ Unquoted s w := by
  constructor
  · rintro (_ | ⟨_, hs⟩ | _)
    · exact ⟨_, rfl, hs⟩
    · exact absurd rfl h
  · rintro ⟨w, rfl, hs⟩
    exact .char h hs

/-- A character that a scan does not see leaves what stands outside of quotes the same. -/
theorem hidden_iff (h : scan.shows c = false) :
    UnquotedFrom scan (c :: s) v ↔ UnquotedFrom (scan.next c) s v := by
  cases scan with
  | plain =>
    obtain rfl : c = backtick := by simpa [Scan.shows] using h
    constructor
    · rintro (_ | ⟨hc, _⟩ | ⟨hq, hs⟩)
      · exact absurd rfl hc
      · exact ⟨_, _, rfl, hq, hs⟩
    · rintro ⟨q, r, rfl, hq, hr⟩
      exact .name hq hr
  | quoted =>
    by_cases hescape : c = '\\'
    · subst hescape
      constructor
      · rintro ⟨q, r, hs, hq, hr⟩
        cases hq with
        | nil => simp [backtick] at hs
        | plain _ hne => exact absurd (List.cons.inj hs).1.symm hne
        | escaped hq => exact ⟨_, _, r, (List.cons.inj hs).2, hq, hr⟩
      · rintro ⟨d, q, r, rfl, hq, hr⟩
        exact ⟨'\\' :: d :: q, r, rfl, .escaped hq, hr⟩
    · by_cases hquote : c = backtick
      · subst hquote
        have hnext : Scan.next .quoted backtick = .plain := rfl
        rw [hnext]
        constructor
        · rintro ⟨q, r, hs, hq, hr⟩
          cases hq with
          | nil => exact (List.cons.inj hs).2 ▸ hr
          | plain hne => exact absurd (List.cons.inj hs).1.symm hne
          | escaped => exact absurd (List.cons.inj hs).1 (by decide)
        · exact fun hs => ⟨[], s, rfl, .nil, hs⟩
      · have hnext : Scan.next .quoted c = .quoted := by simp [Scan.next, hescape, hquote]
        rw [hnext]
        constructor
        · rintro ⟨q, r, hs, hq, hr⟩
          cases hq with
          | nil => exact absurd (List.cons.inj hs).1 hquote
          | plain _ _ hq => exact ⟨_, r, (List.cons.inj hs).2, hq, hr⟩
          | escaped => exact absurd (List.cons.inj hs).1 hescape
        · rintro ⟨q, r, rfl, hq, hr⟩
          exact ⟨c :: q, r, rfl, .plain hquote hescape hq, hr⟩
  | escaped =>
    constructor
    · rintro ⟨d, q, r, hs, hq, hr⟩
      exact ⟨q, r, (List.cons.inj hs).2, hq, hr⟩
    · rintro ⟨q, r, rfl, hq, hr⟩
      exact ⟨c, q, r, rfl, hq, hr⟩

end UnquotedFrom

/-- Every quoted name in a text ends, where a scan may start inside of one. -/
def Ended (scan : Scan) (s : List Char) : Prop := ∃ v, UnquotedFrom scan s v

namespace Ended

variable {scan : Scan} {c : Char} {s : List Char}

/-- A text ends outside of its quoted names. -/
theorem nil_iff : Ended scan [] ↔ scan = .plain := by simp [Ended, UnquotedFrom.nil_iff]

/-- A character that a scan does not see. -/
theorem hidden_iff (h : scan.shows c = false) : Ended scan (c :: s) ↔ Ended (scan.next c) s := by
  simp only [Ended, UnquotedFrom.hidden_iff h]

/-- A character that a scan sees. -/
theorem shown_iff (h : c ≠ backtick) : Ended .plain (c :: s) ↔ Ended .plain s := by
  constructor
  · rintro ⟨v, hv⟩
    obtain ⟨w, -, hw⟩ := (UnquotedFrom.shown_iff h).mp hv
    exact ⟨w, hw⟩
  · rintro ⟨w, hw⟩
    exact ⟨c :: w, .char h hw⟩

end Ended

/-- A text without backticks stands outside of quotes as a whole. -/
theorem Unquoted.of_forall {s : List Char} (h : ∀ c ∈ s, c ≠ backtick) : Unquoted s s := by
  induction s with
  | nil => exact .nil
  | cons c r ih =>
    obtain ⟨hc, hr⟩ := List.forall_mem_cons.mp h
    exact .char hc (ih hr)

/-- Texts in a row. -/
theorem Unquoted.append {s t v w : List Char} (hs : Unquoted s v) (ht : Unquoted t w) :
    Unquoted (s ++ t) (v ++ w) := by
  induction hs with
  | nil => exact ht
  | char hc _ ih => exact .char hc ih
  | name hq _ ih => simpa using name hq ih

/-- Nothing of a quoted name stands outside of quotes. -/
theorem Unquoted.quotedName (name : List Char) : Unquoted (quotedName name) [] :=
  .name (QuotedBody.escapeWith name) .nil

/-! ## Counts of brackets -/

/-- What a character is to a scan that counts brackets. An inner character has to stand inside a
bracket. -/
inductive Role where
  | opening
  | closing
  | inner
  | other
deriving DecidableEq

/-- Angle brackets are counted. -/
def angleRole (c : Char) : Role :=
  if c = '<' then .opening else if c = '>' then .closing else .other

/-- Angle brackets and parentheses are counted as one kind of bracket. -/
def nestingRole (c : Char) : Role :=
  if c = '<' ∨ c = '(' then .opening else if c = '>' ∨ c = ')' then .closing else .other

/-- Both kinds of brackets are counted, and commas stand inside them. -/
def pieceRole (c : Char) : Role := if c = ',' then .inner else nestingRole c

section Roles

variable {c : Char}

/-- One character opens an angle bracket. -/
theorem angleRole_eq_opening : angleRole c = .opening ↔ c = '<' := by grind [angleRole]

/-- One character closes an angle bracket. -/
theorem angleRole_eq_closing : angleRole c = .closing ↔ c = '>' := by grind [angleRole]

/-- No character has to stand inside an angle bracket. -/
theorem angleRole_ne_inner : angleRole c ≠ .inner := by grind [angleRole]

/-- All other characters are not counted. -/
theorem angleRole_eq_other : angleRole c = .other ↔ c ≠ '<' ∧ c ≠ '>' := by grind [angleRole]

/-- Brackets of both kinds are opened. -/
theorem pieceRole_eq_opening : pieceRole c = .opening ↔ c = '<' ∨ c = '(' := by
  grind [pieceRole, nestingRole]

/-- Brackets of both kinds are closed. -/
theorem pieceRole_eq_closing : pieceRole c = .closing ↔ c = '>' ∨ c = ')' := by
  grind [pieceRole, nestingRole]

/-- Commas stand inside brackets. -/
theorem pieceRole_eq_inner : pieceRole c = .inner ↔ c = ',' := by
  grind [pieceRole, nestingRole]

/-- All other characters are not counted. -/
theorem pieceRole_eq_other : pieceRole c = .other ↔
    (c ≠ '<' ∧ c ≠ '>') ∧ c ≠ '(' ∧ c ≠ ')' ∧ c ≠ ',' := by
  grind [pieceRole, nestingRole]

/-- Where commas may stand anywhere they are not counted, and nothing else changes. -/
theorem nestingRole_eq : nestingRole c = if pieceRole c = .inner then .other else pieceRole c := by
  grind [pieceRole, nestingRole]

end Roles

/-- How many characters of a text have a role. -/
def tally (role : Char → Role) (r : Role) (v : List Char) : Nat := v.countP (role · = r)

/-- A text closes the brackets it opens, and `opened` more, and never one that is not open. -/
structure Balances (role : Char → Role) (opened : Nat) (v : List Char) : Prop where
  ends : tally role .closing v = opened + tally role .opening v
  closes : ∀ p, p <+: v → tally role .closing p ≤ opened + tally role .opening p
  encloses : ∀ p c, p ++ [c] <+: v → role c = .inner →
    tally role .closing p < opened + tally role .opening p

/-- The first character counts with the rest. -/
theorem tally_cons (role : Char → Role) (r : Role) (c : Char) (v : List Char) :
    tally role r (c :: v) = tally role r v + if role c = r then 1 else 0 := by
  simp [tally, List.countP_cons]

namespace Balances

variable {role : Char → Role} {opened : Nat} {c : Char} {v : List Char}

/-- The empty text closes nothing. -/
theorem nil_iff : Balances role opened [] ↔ opened = 0 :=
  ⟨fun h => by simpa [tally] using h.ends.symm,
    fun h => ⟨by simp [tally, h], by simp [tally], by simp⟩⟩

/-- The first character changes the number of open brackets, and the rest goes on from there. -/
theorem cons_iff (later : Nat) (h : (opened + if role c = .opening then 1 else 0) =
      later + if role c = .closing then 1 else 0) :
    Balances role opened (c :: v) ↔ (role c = .inner → 0 < opened) ∧ Balances role later v := by
  constructor
  · intro hv
    have hcons {p : List Char} (hp : p <+: v) : c :: p <+: c :: v :=
      List.cons_prefix_cons.mpr ⟨rfl, hp⟩
    refine ⟨fun hinner => by simpa [tally] using hv.encloses [] c (hcons List.nil_prefix) hinner,
      ?_, fun p hp => ?_, fun p d hp hd => ?_⟩
    · have := hv.ends
      rw [tally_cons, tally_cons] at this
      omega
    · have := hv.closes (c :: p) (hcons hp)
      rw [tally_cons, tally_cons] at this
      omega
    · have := hv.encloses (c :: p) d (hcons hp) hd
      rw [tally_cons, tally_cons] at this
      omega
  · rintro ⟨hinner, hv⟩
    refine ⟨?_, fun p hp => ?_, fun p d hp hd => ?_⟩
    · have := hv.ends
      rw [tally_cons, tally_cons]
      omega
    · rcases List.prefix_cons_iff.mp hp with rfl | ⟨q, rfl, hq⟩
      · simp [tally]
      · have := hv.closes q hq
        rw [tally_cons, tally_cons]
        omega
    · cases p with
      | nil =>
        obtain rfl : d = c := by simpa using hp
        simpa [tally] using hinner hd
      | cons e q =>
        obtain ⟨rfl, hq⟩ := List.cons_prefix_cons.mp hp
        have := hv.encloses q d hq hd
        rw [tally_cons, tally_cons]
        omega

/-- After an opening bracket one more is open. -/
theorem opening_iff (h : role c = .opening) :
    Balances role opened (c :: v) ↔ Balances role (opened + 1) v := by
  rw [cons_iff (opened + 1) (by simp [h])]
  simp [h]

/-- After a closing bracket one less is open. -/
theorem closing_iff (h : role c = .closing) :
    Balances role (opened + 1) (c :: v) ↔ Balances role opened v := by
  rw [cons_iff opened (by simp [h])]
  simp [h]

/-- No bracket is closed that is not open. -/
theorem not_closing (h : role c = .closing) : ¬ Balances role 0 (c :: v) := by
  intro hv
  have := hv.closes [c] (List.cons_prefix_cons.mpr ⟨rfl, List.nil_prefix⟩)
  simp [tally, h] at this

/-- An inner character stands inside a bracket. -/
theorem inner_iff (h : role c = .inner) :
    Balances role opened (c :: v) ↔ 0 < opened ∧ Balances role opened v := by
  rw [cons_iff opened (by simp [h])]
  simp [h]

/-- All other characters leave the number of open brackets the same. -/
theorem other_iff (h : role c = .other) :
    Balances role opened (c :: v) ↔ Balances role opened v := by
  rw [cons_iff opened (by simp [h])]
  simp [h]

/-- A text in which nothing counts is balanced. -/
theorem of_forall (h : ∀ c ∈ v, role c = .other) : Balances role 0 v := by
  induction v with
  | nil => exact nil_iff.mpr rfl
  | cons c r ih =>
    obtain ⟨hc, hr⟩ := List.forall_mem_cons.mp h
    exact (other_iff hc).mpr (ih hr)

/-- A balanced text closes one bracket more with a closing bracket behind it. Inside of the bracket
characters may count as inner that do not count otherwise. -/
theorem closed {within : Char → Role} (hc : within c = .closing)
    (hwithin : ∀ d, within d = role d ∨ role d = .other ∧ within d = .inner)
    (h : Balances role opened v) : Balances within (opened + 1) (v ++ [c]) := by
  induction v generalizing opened with
  | nil =>
    obtain rfl := nil_iff.mp h
    exact (closing_iff hc).mpr (nil_iff.mpr rfl)
  | cons d r ih =>
    rw [List.cons_append]
    rcases hwithin d with hd | ⟨hother, hinner⟩
    · cases hrole : role d with
      | opening =>
        exact (opening_iff (hd.trans hrole)).mpr (ih ((opening_iff hrole).mp h))
      | closing =>
        cases opened with
        | zero => exact absurd h (not_closing hrole)
        | succ fewer => exact (closing_iff (hd.trans hrole)).mpr (ih ((closing_iff hrole).mp h))
      | inner =>
        exact (inner_iff (hd.trans hrole)).mpr ⟨opened.succ_pos, ih ((inner_iff hrole).mp h).2⟩
      | other => exact (other_iff (hd.trans hrole)).mpr (ih ((other_iff hrole).mp h))
    · exact (inner_iff hinner).mpr ⟨opened.succ_pos, ih ((other_iff hother).mp h)⟩

end Balances

/-- A text is balanced outside of its quoted names, where a scan may start inside of one. -/
def BalancesFrom (scan : Scan) (role : Char → Role) (opened : Nat) (s : List Char) : Prop :=
  ∃ v, UnquotedFrom scan s v ∧ Balances role opened v

/-- A text is balanced outside of its quoted names. -/
def Balanced (role : Char → Role) (s : List Char) : Prop := BalancesFrom .plain role 0 s

/-- What a scan sees is no quote, and the scan stands outside of quotes. -/
theorem Scan.shows_iff {scan : Scan} {c : Char} :
    scan.shows c = true ↔ scan = .plain ∧ c ≠ backtick := by
  simp [Scan.shows]

namespace BalancesFrom

variable {scan : Scan} {role : Char → Role} {opened : Nat} {c : Char} {s : List Char}

/-- The empty text is balanced where no quote and no bracket is open. -/
theorem nil_iff : BalancesFrom scan role opened [] ↔ scan = .plain ∧ opened = 0 := by
  simp [BalancesFrom, UnquotedFrom.nil_iff, Balances.nil_iff, and_assoc]

/-- A character that a scan does not see does not count. -/
theorem hidden_iff (h : scan.shows c = false) :
    BalancesFrom scan role opened (c :: s) ↔ BalancesFrom (scan.next c) role opened s := by
  simp only [BalancesFrom, UnquotedFrom.hidden_iff h]

/-- A character that a scan sees counts by its role. -/
theorem shown_iff (h : c ≠ backtick) : BalancesFrom .plain role opened (c :: s) ↔
    ∃ v, Unquoted s v ∧ Balances role opened (c :: v) := by
  constructor
  · rintro ⟨v, hs, hv⟩
    obtain ⟨w, rfl, hw⟩ := (UnquotedFrom.shown_iff h).mp hs
    exact ⟨w, hw, hv⟩
  · rintro ⟨w, hw, hv⟩
    exact ⟨c :: w, .char h hw, hv⟩

variable (h : c ≠ backtick)
include h

/-- After an opening bracket one more is open. -/
theorem opening_iff (hrole : role c = .opening) :
    BalancesFrom .plain role opened (c :: s) ↔ BalancesFrom .plain role (opened + 1) s := by
  rw [shown_iff h]
  simp only [Balances.opening_iff hrole]
  rfl

/-- After a closing bracket one less is open. -/
theorem closing_iff (hrole : role c = .closing) :
    BalancesFrom .plain role (opened + 1) (c :: s) ↔ BalancesFrom .plain role opened s := by
  rw [shown_iff h]
  simp only [Balances.closing_iff hrole]
  rfl

/-- No bracket is closed that is not open. -/
theorem not_closing (hrole : role c = .closing) : ¬ BalancesFrom .plain role 0 (c :: s) := by
  rintro hs
  obtain ⟨v, -, hv⟩ := (shown_iff h).mp hs
  exact Balances.not_closing hrole hv

/-- An inner character stands inside a bracket. -/
theorem inner_iff (hrole : role c = .inner) : BalancesFrom .plain role opened (c :: s) ↔
    0 < opened ∧ BalancesFrom .plain role opened s := by
  rw [shown_iff h]
  simp only [Balances.inner_iff hrole, and_left_comm, exists_and_left]
  rfl

/-- All other characters leave the number of open brackets the same. -/
theorem other_iff (hrole : role c = .other) :
    BalancesFrom .plain role opened (c :: s) ↔ BalancesFrom .plain role opened s := by
  rw [shown_iff h]
  simp only [Balances.other_iff hrole]
  rfl

end BalancesFrom

end TypedSql.StoreType
