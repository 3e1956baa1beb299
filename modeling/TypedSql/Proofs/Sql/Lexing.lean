import TypedSql.Text.Quoted

/-!
# Reading SQL character by character

A lexer that knows quotes, brackets and the beginnings of comments and nothing else. Single quotes
and backticks quote, with a backslash in front of any character that is not to count; a bracket
has to be closed by its counterpart, the last one opened first. A text is closed when the lexer
comes through it and ends where it began. Closed texts are put together from texts that leave the
lexer as it was, in whatever brackets they stand.
-/

namespace TypedSql.Sql

open Text

-- A condition on all characters of a text is decided character by character.
attribute [local instance (high)] List.decidableBAll

/-- Where a lexer stands, with the brackets that are due, the next one first. -/
inductive Lexer where
  /-- Outside quotes, behind a character. -/
  | code (before : Char) (due : List Char)
  | quoted (quote : Char) (due : List Char)
  /-- In quotes, behind a backslash. -/
  | escaped (quote : Char) (due : List Char)
deriving DecidableEq, Repr

namespace Lexer

/-- The bracket that closes a bracket. -/
def closing? : Char → Option Char
  | '(' => some ')'
  | '[' => some ']'
  | '<' => some '>'
  | _ => none

/-- Whether a character begins a comment, or does so behind the one before it. -/
def opensComment (before c : Char) : Bool :=
  c == '#' || c == '-' && before == '-' || c == '*' && before == '/'

/-- The state after one more character; none when a comment begins or a bracket is closed that is
not due. -/
def next : Lexer → Char → Option Lexer
  | .code before due, c =>
    if opensComment before c then none
    else if c = '\'' ∨ c = backtick then some (.quoted c due)
    else match closing? c with
      | some close => some (.code c (close :: due))
      | none =>
        if c = ')' ∨ c = ']' ∨ c = '>' then
          if due.head? = some c then some (.code c due.tail) else none
        else some (.code c due)
  | .quoted quote due, c =>
    if c = '\\' then some (.escaped quote due)
    else if c = quote then some (.code c due)
    else some (.quoted quote due)
  | .escaped quote due, _ => some (.quoted quote due)

/-- The state after a text. -/
def read (state : Lexer) (s : List Char) : Option Lexer := s.foldlM next state

/-- Outside quotes, with no bracket due. -/
def atRest : Lexer → Bool
  | .code _ due => due.isEmpty
  | _ => false

@[simp]
theorem read_nil (state : Lexer) : read state [] = some state := rfl

@[simp]
theorem read_cons (state : Lexer) (c : Char) (s : List Char) :
    read state (c :: s) = (state.next c).bind fun state => read state s := rfl

@[simp]
theorem read_append (state : Lexer) (s t : List Char) :
    read state (s ++ t) = (read state s).bind fun state => read state t :=
  List.foldlM_append

/-- The characters that mean something to a lexer, in quotes or outside. -/
def marks : List Char :=
  ['\'', backtick, '\\', '(', ')', '[', ']', '<', '>', '#', '-', '*', '/']

/-- The characters that begin a comment together with the next one. -/
def commentHeads : List Char := ['-', '/']

/-- What begins a comment means something to a lexer. -/
theorem commentHeads_subset_marks : commentHeads ⊆ marks := by decide

/-- A text that means nothing to a lexer. -/
def Markless (s : List Char) : Prop := ∀ c ∈ s, c ∉ marks

instance : DecidablePred Markless := fun s =>
  inferInstanceAs (Decidable (∀ c ∈ s, c ∉ marks))

@[simp]
theorem markless_nil : Markless [] := fun _ h => absurd h List.not_mem_nil

@[simp]
theorem markless_cons {c : Char} {s : List Char} :
    Markless (c :: s) ↔ c ∉ marks ∧ Markless s :=
  List.forall_mem_cons

@[simp]
theorem markless_append {s t : List Char} : Markless (s ++ t) ↔ Markless s ∧ Markless t :=
  List.forall_mem_append

/-- Characters of a text without marks make up texts without marks. -/
theorem Markless.of_subset {s t : List Char} (h : Markless t) (hs : s ⊆ t) : Markless s :=
  fun c hc => h c (hs hc)

/-- A character that is no mark is passed over. -/
theorem next_of_not_mem_marks {before c : Char} {due : List Char} (h : c ∉ marks) :
    next (.code before due) c = some (.code c due) := by
  simp only [marks, List.mem_cons, List.not_mem_nil, or_false, not_or] at h
  simp [next, opensComment, closing?, h]

/-- A text without marks is passed over, whatever stands before it. -/
theorem read_markless {s : List Char} (h : Markless s) (before : Char) (due : List Char) :
    read (.code before due) s = some (.code (s.getLastD before) due) := by
  induction s generalizing before with
  | nil => rfl
  | cons c rest ih =>
    obtain ⟨hc, hrest⟩ := markless_cons.mp h
    rw [read_cons, next_of_not_mem_marks hc, Option.bind_some, ih hrest, List.getLastD_cons]

end Lexer

open Lexer

/-- Whether a text is one closed piece of SQL: read from its beginning it shows no comment, closes
no bracket but the last one opened, and ends outside quotes with all brackets closed. -/
def isClosed (s : List Char) : Bool := (read (.code ' ' []) s).any atRest

example : isClosed "f(a['])'], `--`)".toList = true := by decide

example : isClosed "'it's'".toList = false := by decide

/-! ## Quoted text -/

/-- A text that stands within quotes as it is: none of its characters ends them. -/
def Inside (quote : Char) (s : List Char) : Prop :=
  ∀ due, read (.quoted quote due) s = some (.quoted quote due)

namespace Inside

variable {quote : Char} {s t : List Char}

/-- The empty text stands within quotes. -/
theorem nil : Inside quote [] := fun _ => rfl

/-- Two texts stand within quotes one after the other. -/
theorem append (hs : Inside quote s) (ht : Inside quote t) : Inside quote (s ++ t) := by
  intro due
  rw [read_append, hs due, Option.bind_some, ht due]

/-- A character stands within quotes when it is neither the quote nor a backslash. -/
theorem char {c : Char} (hquote : c ≠ quote) (hescape : c ≠ '\\') : Inside quote [c] := by
  intro due
  simp [next, hquote, hescape]

/-- Any character stands within quotes behind a backslash. -/
theorem escape (quote c : Char) : Inside quote ['\\', c] := fun _ => rfl

/-- A text without quotes and backslashes stands within quotes. -/
theorem of_forall (h : ∀ c ∈ s, c ≠ quote ∧ c ≠ '\\') : Inside quote s := by
  induction s with
  | nil => exact nil
  | cons c rest ih =>
    obtain ⟨hc, hrest⟩ := List.forall_mem_cons.mp h
    exact (char hc.1 hc.2).append (ih hrest)

/-- Any text stands within quotes when the quote and the backslash are among the characters that
are escaped. -/
theorem escapeWith {code : Char → Option Char}
    (h : ∀ c, code c = none → c ≠ quote ∧ c ≠ '\\') (s : List Char) :
    Inside quote (escapeWith code s) :=
  escapeWith_induction nil (fun c _ hc ih => (char (h c hc).1 (h c hc).2).append ih)
    (fun d _ ih => (escape quote d).append ih) s

/-- The escaped characters of a name stand between backticks. -/
theorem nameCode (s : List Char) : Inside backtick (Text.escapeWith nameCode s) :=
  escapeWith (fun _ => nameCode_eq_none.mp) s

/-- The escaped characters of a literal stand between single quotes. -/
theorem literalCode (s : List Char) : Inside '\'' (Text.escapeWith literalCode s) := by
  refine escapeWith (fun c h => ?_) s
  constructor
  · rintro rfl
    cases h
  · rintro rfl
    cases h

end Inside

/-! ## Neutral texts -/

/-- A text that leaves a lexer outside quotes with the same brackets due. Neither in front nor at
the end of the text stands half the beginning of a comment. -/
def Neutral (s : List Char) : Prop :=
  ∀ before due, before ∉ commentHeads →
    ∃ after, after ∉ commentHeads ∧ read (.code before due) s = some (.code after due)

/-- A text that is neutral whatever stands in front. -/
def Guarded (s : List Char) : Prop :=
  ∀ before due, ∃ after, after ∉ commentHeads ∧ read (.code before due) s = some (.code after due)

namespace Neutral

variable {s t : List Char}

/-- A neutral text is closed. -/
theorem isClosed (h : Neutral s) : isClosed s = true := by
  obtain ⟨after, -, hread⟩ := h ' ' [] (by decide)
  rw [Sql.isClosed, hread]
  rfl

/-- Two neutral texts are neutral one after the other. -/
theorem append (hs : Neutral s) (ht : Neutral t) : Neutral (s ++ t) := by
  intro before due hbefore
  obtain ⟨middle, hmiddle, hs⟩ := hs before due hbefore
  obtain ⟨after, hafter, ht⟩ := ht middle due hmiddle
  exact ⟨after, hafter, by rw [read_append, hs, Option.bind_some, ht]⟩

/-- A text without marks is neutral. -/
theorem of_markless (h : Markless s) : Neutral s := by
  intro before due hbefore
  refine ⟨s.getLastD before, ?_, read_markless h before due⟩
  have hlast : s.getLastD before ∈ before :: s := List.getLastD_mem_cons
  rcases List.mem_cons.mp hlast with hlast | hlast
  · rwa [hlast]
  · exact fun hhead => h _ hlast (commentHeads_subset_marks hhead)

/-- A bracket, a neutral text and the counterpart of the bracket are neutral. -/
theorem brackets {opening close : Char} (hclosing : closing? opening = some close)
    (h : Neutral s) : Neutral (opening :: (s ++ [close])) := by
  intro before due hbefore
  have hpair : opening ∉ commentHeads ∧ close ∉ commentHeads ∧
      next (.code before due) opening = some (.code opening (close :: due)) ∧
      ∀ after, next (.code after (close :: due)) close = some (.code close due) := by
    unfold closing? at hclosing
    split at hclosing
    case h_4 => cases hclosing
    all_goals
      obtain rfl := Option.some.inj hclosing
      exact ⟨by decide, by decide, rfl, fun _ => rfl⟩
  obtain ⟨hopening, hclose, hopens, hcloses⟩ := hpair
  obtain ⟨after, -, hread⟩ := h opening (close :: due) hopening
  refine ⟨close, hclose, ?_⟩
  rw [read_cons, hopens, Option.bind_some, read_append, hread, Option.bind_some, read_cons,
    hcloses, Option.bind_some, read_nil]

/-- Quotes around a text that stands within them are neutral. -/
theorem quotes {quote : Char} (hquote : quote = '\'' ∨ quote = backtick) (h : Inside quote s) :
    Neutral (quote :: (s ++ [quote])) := by
  intro before due _
  have hpair : quote ∉ commentHeads ∧ next (.code before due) quote = some (.quoted quote due) ∧
      next (.quoted quote due) quote = some (.code quote due) := by
    rcases hquote with rfl | rfl <;> exact ⟨by decide, rfl, rfl⟩
  obtain ⟨hend, hopens, hcloses⟩ := hpair
  refine ⟨quote, hend, ?_⟩
  rw [read_cons, hopens, Option.bind_some, read_append, h due, Option.bind_some, read_cons,
    hcloses, Option.bind_some, read_nil]

/-- A quoted name is neutral, whatever characters it has. -/
theorem quotedName (s : List Char) : Neutral (quotedName s) := quotes (.inr rfl) (.nameCode s)

/-- A string literal is neutral, whatever characters it has. -/
theorem quotedLiteral (s : List Char) : Neutral (quotedLiteral s) :=
  quotes (.inl rfl) (.literalCode s)

end Neutral

namespace Guarded

variable {s t : List Char}

/-- A text without marks that is not empty is neutral whatever stands in front. -/
theorem of_markless (hne : s ≠ []) (h : Markless s) : Guarded s := by
  obtain ⟨c, rest, rfl⟩ := List.exists_cons_of_ne_nil hne
  obtain ⟨hc, hrest⟩ := markless_cons.mp h
  intro before due
  rw [read_cons, next_of_not_mem_marks hc, Option.bind_some]
  exact Neutral.of_markless hrest c due fun hhead => hc (commentHeads_subset_marks hhead)

/-- What stands in front of a text does not matter to a neutral one behind it. -/
theorem append (hs : Guarded s) (ht : Neutral t) : Guarded (s ++ t) := by
  intro before due
  obtain ⟨middle, hmiddle, hs⟩ := hs before due
  obtain ⟨after, hafter, ht⟩ := ht middle due hmiddle
  exact ⟨after, hafter, by rw [read_append, hs, Option.bind_some, ht]⟩

/-- A text that is neutral whatever stands in front is neutral. -/
theorem neutral (h : Guarded s) : Neutral s := fun before due _ => h before due

/-- With or without a minus sign such a text is neutral. -/
theorem sign (h : Guarded s) (negative : Prop) [Decidable negative] :
    Neutral (if negative then '-' :: s else s) := by
  split
  · intro before due hbefore
    have hsign : next (.code before due) '-' = some (.code '-' due) := by
      simp only [commentHeads, List.mem_cons, not_or] at hbefore
      simp [next, opensComment, closing?, backtick, hbefore]
    rw [read_cons, hsign, Option.bind_some]
    exact h '-' due
  · exact h.neutral

end Guarded

end TypedSql.Sql
