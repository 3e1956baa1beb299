import TypedSql.Proofs.Sql.Phrase
import TypedSql.Proofs.Sql.Token

/-!
# The expression grammar

The grammar that SQL expressions are read with, from the loosest level to the tightest: 1 `OR`,
2 `AND`, 3 `NOT`, 4 comparisons and `IN UNNEST`, 5 `+` and `-`, 6 `*`, `/` and `||`, 7 unary minus,
8 indices and fields, 9 words, calls, casts, array literals and parentheses. Binary operators group
to the left; comparisons do not group at all.

A reader that descends level by level finds every derivation, which makes the grammar unambiguous:
a sequence of tokens has at most one structure.
-/

namespace TypedSql.Sql.Grammar

/-- The level of a binary operator. -/
def level : BinaryOp → Nat
  | .or => 1
  | .and => 2
  | .eq | .ne | .lt | .le | .gt | .ge => 4
  | .add | .subtract => 5
  | .multiply | .divide | .concat => 6

/-- Sequences of tokens separated by commas. -/
def separated : List (List Token) → List Token
  | [] => []
  | [first] => first
  | first :: rest => first ++ .comma :: separated rest

/-- `Derives p tokens t`: at level `p` the tokens can be read as the phrase `t`. -/
inductive Derives : Nat → List Token → Phrase → Prop
  /-- What can be read at a tighter level can be read at a looser one. -/
  | tighter {p : Nat} {a : List Token} {x : Phrase} (hp : p < 9) (hx : Derives (p + 1) a x) :
      Derives p a x
  | binary {a b : List Token} {x y : Phrase} {op : BinaryOp} (hop : level op ≠ 4)
      (hx : Derives (level op) a x) (hy : Derives (level op + 1) b y) :
      Derives (level op) (a ++ .operator op :: b) (.binary x op y)
  | comparison {a b : List Token} {x y : Phrase} {op : BinaryOp} (hop : level op = 4)
      (hx : Derives 5 a x) (hy : Derives 5 b y) :
      Derives 4 (a ++ .operator op :: b) (.binary x op y)
  | inUnnest {a b : List Token} {x y : Phrase} (hx : Derives 5 a x) (hy : Derives 1 b y) :
      Derives 4 (a ++ .isIn :: .unnest :: .openParen :: (b ++ [.closeParen])) (.inUnnest x y)
  | not {a : List Token} {x : Phrase} (hx : Derives 3 a x) :
      Derives 3 (.not :: a) (.unary .not x)
  | negate {a : List Token} {x : Phrase} (hx : Derives 7 a x) :
      Derives 7 (.operator .subtract :: a) (.unary .negate x)
  | index {a b : List Token} {x y : Phrase} {mode : IndexMode} (hx : Derives 8 a x)
      (hy : Derives 1 b y) :
      Derives 8 (a ++ .openBracket :: .offset mode :: .openParen ::
        (b ++ [.closeParen, .closeBracket])) (.index x y mode)
  | member {a : List Token} {x : Phrase} {field : List Char} (hx : Derives 8 a x) :
      Derives 8 (a ++ [.dot, .word field]) (.member x field)
  | word {s : List Char} : Derives 9 [.word s] (.word s)
  | call {name : List Char} {args : List (List Token × Phrase)}
      (h : ∀ arg ∈ args, Derives 1 arg.1 arg.2) :
      Derives 9 (.word name :: .openParen :: (separated (args.map Prod.fst) ++ [.closeParen]))
        (.call name (args.map Prod.snd))
  | cast {a : List Token} {x : Phrase} {type : List Char} (hx : Derives 1 a x) :
      Derives 9 (.cast :: .openParen :: (a ++ [.asType, .word type, .closeParen])) (.cast x type)
  | array {type : List Char} {items : List (List Token × Phrase)}
      (h : ∀ item ∈ items, Derives 1 item.1 item.2) :
      Derives 9 (.word type :: .openBracket :: (separated (items.map Prod.fst) ++ [.closeBracket]))
        (.array type (items.map Prod.snd))
  | group {a : List Token} {x : Phrase} (hx : Derives 1 a x) :
      Derives 9 (.openParen :: (a ++ [.closeParen])) x

/-- A reading at one level is a reading at every looser one. -/
theorem Derives.loosen {p q : Nat} {a : List Token} {x : Phrase} (h : Derives q a x) (hpq : p ≤ q)
    (hq : q ≤ 9) : Derives p a x := by
  obtain ⟨d, rfl⟩ := Nat.exists_eq_add_of_le hpq
  induction d with
  | zero => exact h
  | succ d ih => exact ih (Derives.tighter (by omega) h) (by omega) (by omega)

/-! ## Reading tokens level by level -/

/-- Where a reader stands: the level it reads at and the tokens ahead. -/
structure Cursor where
  level : Nat
  ahead : List Token

namespace Cursor

mutual

/-- Reads a phrase of the level and returns what follows it. -/
def read (c : Cursor) : Option (Phrase × List Token) :=
  match c.level, c.ahead with
  | 3, .not :: rest => do
    let (x, rest) ← mk 3 rest |>.read
    return (.unary .not x, rest)
  | 3, ts => mk 4 ts |>.read
  | 7, .operator .subtract :: rest => do
    let (x, rest) ← mk 7 rest |>.read
    return (.unary .negate x, rest)
  | 7, ts => mk 8 ts |>.read
  | 9, .openParen :: rest => do
    match ← mk 1 rest |>.read with
    | (x, .closeParen :: rest) => return (x, rest)
    | _ => none
  | 9, .cast :: .openParen :: rest => do
    match ← mk 1 rest |>.read with
    | (x, .asType :: .word type :: .closeParen :: rest) => return (.cast x type, rest)
    | _ => none
  | 9, .word name :: .openParen :: rest => do
    match ← mk 1 rest |>.readAll with
    | (args, .closeParen :: rest) => return (.call name args, rest)
    | _ => none
  | 9, .word s :: .openBracket :: .offset mode :: rest =>
    return (.word s, .openBracket :: .offset mode :: rest)
  | 9, .word type :: .openBracket :: rest => do
    match ← mk 1 rest |>.readAll with
    | (items, .closeBracket :: rest) => return (.array type items, rest)
    | _ => none
  | 9, .word s :: rest => return (.word s, rest)
  | 9, _ => none
  | p, ts => do
    let (x, rest) ← mk (p + 1) ts |>.read
    mk p rest |>.more x
partial_fixpoint

/-- Reads what may follow a phrase at its own level. -/
def more (c : Cursor) (x : Phrase) : Option (Phrase × List Token) :=
  match c.ahead with
  | .operator op :: rest =>
    if Grammar.level op = c.level then do
      let (y, rest) ← mk (c.level + 1) rest |>.read
      if c.level = 4 then return (.binary x op y, rest)
      else mk c.level rest |>.more (.binary x op y)
    else return (x, .operator op :: rest)
  | .isIn :: .unnest :: .openParen :: rest =>
    if c.level = 4 then do
      match ← mk 1 rest |>.read with
      | (y, .closeParen :: rest) => return (.inUnnest x y, rest)
      | _ => none
    else return (x, .isIn :: .unnest :: .openParen :: rest)
  | .openBracket :: .offset mode :: .openParen :: rest =>
    if c.level = 8 then do
      match ← mk 1 rest |>.read with
      | (y, .closeParen :: .closeBracket :: rest) => mk 8 rest |>.more (.index x y mode)
      | _ => none
    else return (x, .openBracket :: .offset mode :: .openParen :: rest)
  | .dot :: .word field :: rest =>
    if c.level = 8 then mk 8 rest |>.more (.member x field)
    else return (x, .dot :: .word field :: rest)
  | ts => return (x, ts)
partial_fixpoint

/-- Reads phrases of the level separated by commas, none before a closing bracket. -/
def readAll (c : Cursor) : Option (List Phrase × List Token) :=
  match c.ahead with
  | .closeParen :: rest => return ([], .closeParen :: rest)
  | .closeBracket :: rest => return ([], .closeBracket :: rest)
  | ts => do
    match ← mk c.level ts |>.read with
    | (x, .comma :: rest) =>
      let (others, rest) ← mk c.level rest |>.readAll
      return (x :: others, rest)
    | (x, rest) => return ([x], rest)
partial_fixpoint

end

end Cursor

/-! ## First and following tokens -/

/-- The tightest level at which tokens go on with a phrase in front of them, 0 if at none. -/
def reach : List Token → Nat
  | .openParen :: _ => 9
  | .openBracket :: .offset _ :: _ => 8
  | .openBracket :: _ => 9
  | .dot :: _ => 8
  | .operator op :: _ => level op
  | .isIn :: _ => 4
  | _ => 0

/-- The tightest level of a phrase that starts with given tokens, 0 if none does. -/
def entry : List Token → Nat
  | .word _ :: _ | .cast :: _ | .openParen :: _ => 9
  | .not :: _ => 3
  | .operator .subtract :: _ => 7
  | _ => 0

/-- Binary operators stand on five of the six loosest levels. -/
theorem level_bounds (op : BinaryOp) : 1 ≤ level op ∧ level op ≤ 6 ∧ level op ≠ 3 := by
  cases op <;> simp [level]

/-- A phrase starts with a token that suits its level. -/
theorem Derives.le_entry {p : Nat} {a : List Token} {x : Phrase} (h : Derives p a x)
    (rest : List Token) : p ≤ entry (a ++ rest) := by
  induction h generalizing rest with
  | tighter _ _ ih => exact Nat.le_of_succ_le (ih rest)
  | binary _ _ _ ih _ => simpa using ih _
  | comparison _ _ _ ih _ => exact Nat.le_of_succ_le (by simpa using ih (.operator _ :: _))
  | inUnnest _ _ ih _ => exact Nat.le_of_succ_le (by simpa using ih (.isIn :: _))
  | index _ _ ih _ => simpa using ih _
  | member _ ih => simpa using ih _
  | not | negate | word | call | cast | array | group => exact Nat.le_refl _

/-- A list of phrases starts with a token that starts a phrase, unless it is empty. -/
theorem entry_separated {args : List (List Token × Phrase)}
    (hargs : ∀ arg ∈ args, Derives 1 arg.1 arg.2) (rest : List Token) :
    args = [] ∨ 0 < entry (separated (args.map Prod.fst) ++ rest) := by
  match args with
  | [] => exact Or.inl rfl
  | [arg] => exact Or.inr ((hargs arg List.mem_cons_self).le_entry _)
  | arg :: next :: others =>
    refine Or.inr ?_
    simp only [List.map_cons, separated, List.append_assoc]
    exact (hargs arg List.mem_cons_self).le_entry _

/-! ## One step of the reader -/

/-- Nothing more is read where the next tokens do not go on with the phrase. -/
theorem more_stop {p : Nat} {ts : List Token} (x : Phrase) (h : reach ts < p) :
    (Cursor.mk p ts).more x = some (x, ts) := by
  rw [Cursor.more.eq_def]
  dsimp only
  split
  · rw [if_neg (Nat.ne_of_lt (by simpa only [reach] using h))]
    rfl
  · rw [if_neg (Nat.ne_of_gt (by simpa only [reach] using h))]
    rfl
  · rw [if_neg (Nat.ne_of_gt (by simpa only [reach] using h))]
    rfl
  · rw [if_neg (Nat.ne_of_gt (by simpa only [reach] using h))]
    rfl
  · rfl

/-- Levels without a prefix read a tighter phrase first. -/
theorem read_descend {p : Nat} (hp : p < 9) (h3 : p ≠ 3) (h7 : p ≠ 7) (ts : List Token) :
    (Cursor.mk p ts).read =
      (Cursor.mk (p + 1) ts).read.bind fun y => (Cursor.mk p y.2).more y.1 := by
  rw [Cursor.read.eq_def]
  dsimp only
  split <;> first | omega | rfl

/-- A level with a prefix is passed over where the prefix is absent. -/
theorem read_skip {p : Nat} (hp : p = 3 ∨ p = 7) {ts : List Token} (h : p < entry ts) :
    (Cursor.mk p ts).read = (Cursor.mk (p + 1) ts).read := by
  rw [Cursor.read.eq_def]
  dsimp only
  rcases hp with rfl | rfl <;> split <;> simp_all [entry]

/-- An operator of the level at hand takes one more operand. -/
theorem more_operator {op : BinaryOp} (hop : level op ≠ 4) (x : Phrase) (ts : List Token) :
    (Cursor.mk (level op) (.operator op :: ts)).more x =
      (Cursor.mk (level op + 1) ts).read.bind fun y =>
        (Cursor.mk (level op) y.2).more (.binary x op y.1) := by
  rw [Cursor.more.eq_def]
  simp [hop]

/-- A comparison takes its right operand and no further one. -/
theorem more_comparison {op : BinaryOp} (hop : level op = 4) (x : Phrase) (ts : List Token) :
    (Cursor.mk 4 (.operator op :: ts)).more x =
      (Cursor.mk 5 ts).read.bind fun y => some (.binary x op y.1, y.2) := by
  rw [Cursor.more.eq_def]
  simp [hop]

/-- A word in front of a bracket that holds no index is the type of an array literal. -/
theorem read_array {ts : List Token} (type : List Char) (h : ∀ mode us, ts ≠ .offset mode :: us) :
    (Cursor.mk 9 (.word type :: .openBracket :: ts)).read = (Cursor.mk 1 ts).readAll.bind fun
      | (items, .closeBracket :: rest) => some (.array type items, rest)
      | _ => none := by
  rw [Cursor.read.eq_def]
  cases ts with
  | nil => rfl
  | cons t us => cases t <;> first | rfl | exact absurd rfl (h _ _)

/-- Where a phrase can start, at least one is read. -/
theorem readAll_cons {ts : List Token} (h : 0 < entry ts) :
    (Cursor.mk 1 ts).readAll = (Cursor.mk 1 ts).read.bind fun
      | (x, .comma :: rest) => (Cursor.mk 1 rest).readAll.map fun y => (x :: y.1, y.2)
      | (x, rest) => some ([x], rest) := by
  rw [Cursor.readAll.eq_def]
  dsimp only
  split
  · simp [entry] at h
  · simp [entry] at h
  · refine congrArg _ (funext fun y => ?_)
    obtain ⟨x, rest⟩ := y
    cases rest with
    | nil => rfl
    | cons t rest =>
      cases t with
      | comma => exact Option.map_eq_bind.symm
      | _ => rfl

/-! ## What the reader finds -/

/-- The reader takes tokens for a phrase, in front of tokens that do not go on with it. -/
def Reads (p : Nat) (a : List Token) (x : Phrase) : Prop :=
  ∀ rest, reach rest < p → (Cursor.mk p (a ++ rest)).read = some (x, rest)

/-- The reader takes tokens for a phrase and then looks for more at the same level. -/
def ReadsOn (p : Nat) (a : List Token) (x : Phrase) : Prop :=
  ∀ rest, reach rest ≤ p → (Cursor.mk p (a ++ rest)).read = (Cursor.mk p rest).more x

/-- The levels at which phrases grow to the right without end. -/
def Chains (p : Nat) : Prop := p = 1 ∨ p = 2 ∨ p = 5 ∨ p = 6 ∨ p = 8

/-- Looking for more ends where nothing goes on. -/
theorem ReadsOn.reads {p : Nat} {a : List Token} {x : Phrase} (h : ReadsOn p a x) :
    Reads p a x :=
  fun rest hrest => (h rest (Nat.le_of_lt hrest)).trans (more_stop x hrest)

/-- A tighter phrase is read before more is looked for. -/
theorem Reads.readsOn {p : Nat} {a : List Token} {x : Phrase} (h : Reads (p + 1) a x)
    (hp : p < 9) (h3 : p ≠ 3) (h7 : p ≠ 7) : ReadsOn p a x := by
  intro rest hrest
  rw [read_descend hp h3 h7, h rest (Nat.lt_succ_of_le hrest)]
  rfl

/-- An operator that groups to the left takes its right operand and goes on. -/
theorem ReadsOn.binary {a b : List Token} {x y : Phrase} {op : BinaryOp}
    (hx : ReadsOn (level op) a x) (hy : Reads (level op + 1) b y) (hop : level op ≠ 4) :
    ReadsOn (level op) (a ++ .operator op :: b) (.binary x op y) := by
  intro rest hrest
  have hleft := hx (.operator op :: (b ++ rest)) (Nat.le_refl _)
  have hright := hy rest (Nat.lt_succ_of_le hrest)
  rw [List.append_assoc, List.cons_append, hleft, more_operator hop, hright]
  rfl

/-- A comparison takes its right operand and ends. -/
theorem Reads.comparison {a b : List Token} {x y : Phrase} {op : BinaryOp} (hop : level op = 4)
    (hx : Reads 5 a x) (hy : Reads 5 b y) : Reads 4 (a ++ .operator op :: b) (.binary x op y) := by
  intro rest hrest
  have hleft := hx (.operator op :: (b ++ rest)) (by simp [reach, hop])
  have hright := hy rest (Nat.lt_succ_of_lt hrest)
  rw [List.append_assoc, List.cons_append, read_descend (by decide) (by decide) (by decide), hleft,
    Option.bind_some, more_comparison hop, hright]
  rfl

/-- A membership test takes the array in its parentheses and ends. -/
theorem Reads.inUnnest {a b : List Token} {x y : Phrase} (hx : Reads 5 a x) (hy : Reads 1 b y) :
    Reads 4 (a ++ .isIn :: .unnest :: .openParen :: (b ++ [.closeParen])) (.inUnnest x y) := by
  intro rest _
  have hleft := hx (.isIn :: .unnest :: .openParen :: (b ++ .closeParen :: rest)) (by simp [reach])
  have hright := hy (.closeParen :: rest) (by simp [reach])
  simp only [List.append_assoc, List.cons_append, List.nil_append]
  rw [read_descend (by decide) (by decide) (by decide), hleft, Option.bind_some, Cursor.more.eq_def]
  simp [hright]

/-- An index takes the position in its brackets and goes on. -/
theorem ReadsOn.index {a b : List Token} {x y : Phrase} {mode : IndexMode} (hx : ReadsOn 8 a x)
    (hy : Reads 1 b y) :
    ReadsOn 8 (a ++ .openBracket :: .offset mode :: .openParen ::
      (b ++ [.closeParen, .closeBracket])) (.index x y mode) := by
  intro rest _
  have hleft := hx (.openBracket :: .offset mode :: .openParen ::
    (b ++ .closeParen :: .closeBracket :: rest)) (Nat.le_refl _)
  have hright := hy (.closeParen :: .closeBracket :: rest) (by simp [reach])
  simp only [List.append_assoc, List.cons_append, List.nil_append]
  rw [hleft, Cursor.more.eq_def]
  simp [hright]

/-- A field takes its name and goes on. -/
theorem ReadsOn.member {a : List Token} {x : Phrase} {field : List Char} (hx : ReadsOn 8 a x) :
    ReadsOn 8 (a ++ [.dot, .word field]) (.member x field) := by
  intro rest _
  have hleft := hx (.dot :: .word field :: rest) (Nat.le_refl _)
  simp only [List.append_assoc, List.cons_append, List.nil_append]
  rw [hleft, Cursor.more.eq_def]
  simp

/-- A list of phrases between commas is read as their list. -/
theorem readAll_separated {args : List (List Token × Phrase)} {close : Token}
    (hder : ∀ arg ∈ args, Derives 1 arg.1 arg.2) (hreads : ∀ arg ∈ args, Reads 1 arg.1 arg.2)
    (hclose : close = .closeParen ∨ close = .closeBracket) (rest : List Token) :
    (Cursor.mk 1 (separated (args.map Prod.fst) ++ close :: rest)).readAll =
      some (args.map Prod.snd, close :: rest) := by
  induction args with
  | nil =>
    rw [Cursor.readAll.eq_def]
    rcases hclose with rfl | rfl <;> rfl
  | cons arg others ih =>
    have hentry := (hder arg List.mem_cons_self).le_entry
    have hread := hreads arg List.mem_cons_self
    cases others with
    | nil =>
      have hlast := hread (close :: rest) (by rcases hclose with rfl | rfl <;> simp [reach])
      simp only [List.map_cons, List.map_nil, separated]
      rw [readAll_cons (hentry _), hlast]
      rcases hclose with rfl | rfl <;> rfl
    | cons next others =>
      have hfirst := hread (.comma :: (separated ((next :: others).map Prod.fst) ++ close :: rest))
        (by simp [reach])
      have htail := ih (fun arg harg => hder arg (List.mem_cons_of_mem _ harg))
        (fun arg harg => hreads arg (List.mem_cons_of_mem _ harg))
      simp only [List.map_cons, separated, List.append_assoc, List.cons_append] at hfirst htail ⊢
      rw [readAll_cons (hentry _), hfirst]
      simp [htail]

/-- A call takes its arguments up to the closing parenthesis. -/
theorem Reads.call {name : List Char} {args : List (List Token × Phrase)}
    (hder : ∀ arg ∈ args, Derives 1 arg.1 arg.2) (hreads : ∀ arg ∈ args, Reads 1 arg.1 arg.2) :
    Reads 9 (.word name :: .openParen :: (separated (args.map Prod.fst) ++ [.closeParen]))
      (.call name (args.map Prod.snd)) := by
  intro rest _
  have hall := readAll_separated hder hreads (Or.inl rfl) rest
  simp only [List.append_assoc, List.cons_append, List.nil_append]
  rw [Cursor.read.eq_def]
  simp [hall]

/-- An array literal takes its items up to the closing bracket. -/
theorem Reads.array {type : List Char} {items : List (List Token × Phrase)}
    (hder : ∀ item ∈ items, Derives 1 item.1 item.2)
    (hreads : ∀ item ∈ items, Reads 1 item.1 item.2) :
    Reads 9 (.word type :: .openBracket :: (separated (items.map Prod.fst) ++ [.closeBracket]))
      (.array type (items.map Prod.snd)) := by
  intro rest _
  have hall := readAll_separated hder hreads (Or.inr rfl) rest
  simp only [List.append_assoc, List.cons_append, List.nil_append]
  rw [read_array, hall]
  · rfl
  · intro mode us h
    rcases entry_separated hder (.closeBracket :: rest) with rfl | hentry
    · simp [separated] at h
    · simp [h, entry] at hentry

/-- The reader finds every derivation. -/
theorem reads_of_derives {p : Nat} {a : List Token} {x : Phrase} (h : Derives p a x) :
    Reads p a x ∧ (Chains p → ReadsOn p a x) := by
  have single {p : Nat} {a : List Token} {x : Phrase} (h : Reads p a x) (hp : ¬Chains p) :
      Reads p a x ∧ (Chains p → ReadsOn p a x) := ⟨h, fun hc => absurd hc hp⟩
  have chain {p : Nat} {a : List Token} {x : Phrase} (h : ReadsOn p a x) :
      Reads p a x ∧ (Chains p → ReadsOn p a x) := ⟨h.reads, fun _ => h⟩
  induction h with
  | @tighter p a x hp hx ih =>
    by_cases hskip : p = 3 ∨ p = 7
    · refine single (fun rest hrest => ?_) (by rcases hskip with rfl | rfl <;> simp [Chains])
      rw [read_skip hskip (hx.le_entry rest)]
      exact ih.1 rest (Nat.lt_succ_of_lt hrest)
    · exact chain (ih.1.readsOn hp (fun h => hskip (Or.inl h)) (fun h => hskip (Or.inr h)))
  | @binary a b x y op hop hx hy ihx ihy =>
    have hchains : Chains (level op) := by revert hop; cases op <;> simp [level, Chains]
    exact chain ((ihx.2 hchains).binary ihy.1 hop)
  | comparison hop _ _ ihx ihy => exact single (ihx.1.comparison hop ihy.1) (by simp [Chains])
  | inUnnest _ _ ihx ihy => exact single (ihx.1.inUnnest ihy.1) (by simp [Chains])
  | not _ ih =>
    refine single (fun rest hrest => ?_) (by simp [Chains])
    rw [List.cons_append, Cursor.read.eq_def]
    simp [ih.1 rest hrest]
  | negate _ ih =>
    refine single (fun rest hrest => ?_) (by simp [Chains])
    rw [List.cons_append, Cursor.read.eq_def]
    simp [ih.1 rest hrest]
  | index _ _ ihx ihy => exact chain ((ihx.2 (by simp [Chains])).index ihy.1)
  | member _ ih => exact chain (ih.2 (by simp [Chains])).member
  | word =>
    refine single (fun rest hrest => ?_) (by simp [Chains])
    rw [List.cons_append, List.nil_append, Cursor.read.eq_def]
    split <;> simp_all [reach]
  | call hargs ih => exact single (.call hargs fun arg harg => (ih arg harg).1) (by simp [Chains])
  | @cast a x type _ ih =>
    refine single (fun rest hrest => ?_) (by simp [Chains])
    have hinner := ih.1 (.asType :: .word type :: .closeParen :: rest) (by simp [reach])
    simp only [List.append_assoc, List.cons_append, List.nil_append]
    rw [Cursor.read.eq_def]
    simp [hinner]
  | array hitems ih =>
    exact single (.array hitems fun item hitem => (ih item hitem).1) (by simp [Chains])
  | @group a x _ ih =>
    refine single (fun rest hrest => ?_) (by simp [Chains])
    have hinner := ih.1 (.closeParen :: rest) (by simp [reach])
    simp only [List.append_assoc, List.cons_append, List.nil_append]
    rw [Cursor.read.eq_def]
    simp [hinner]

/-- The grammar is unambiguous: tokens have at most one structure at a level. -/
theorem Derives.unique {p : Nat} {a : List Token} {x y : Phrase} (hp : 0 < p)
    (hx : Derives p a x) (hy : Derives p a y) : x = y := by
  have hreadx := (reads_of_derives hx).1 [] hp
  have hready := (reads_of_derives hy).1 [] hp
  rw [hreadx] at hready
  simpa using hready

end TypedSql.Sql.Grammar
