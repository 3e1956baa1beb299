import TypedSql.Proofs.StoreType.Balance
import TypedSql.Proofs.StoreType.Scanning

/-!
# Where the scans cut

The search for a closing bracket and the splitting at commas, told by counts. The bracket found is
the first one behind a balanced text; a text is split when its brackets are balanced, at each of
the commas that stand outside of all of them.
-/

namespace TypedSql.StoreType

open Text

/-! ## The closing bracket -/

section ClosingBracket

variable {scan : Scan} {opened : Nat} {s : List Char}

/-- The search for the closing bracket goes on after a character that it does not see. -/
theorem closeBracket?_hidden {c : Char} (h : scan.shows c = false) (depth : Nat)
    (rest : List Char) : closeBracket? scan depth (c :: rest) =
      (closeBracket? (scan.next c) depth rest).map fun (before, after) => (c :: before, after) := by
  rw [closeBracket?.eq_def]
  simp [h]

/-- The search for the closing bracket goes on after a character that is not counted. -/
theorem closeBracket?_other {c : Char} (hquote : c ≠ backtick) (hrole : angleRole c = .other)
    (depth : Nat) (rest : List Char) : closeBracket? .plain depth (c :: rest) =
      (closeBracket? .plain depth rest).map fun (before, after) => (c :: before, after) := by
  obtain ⟨hopen, hclose⟩ := angleRole_eq_other.mp hrole
  exact closeBracket?_plain ⟨hopen, hclose, hquote⟩

/-- The search for the closing bracket passes through a balanced text. -/
theorem closeBracket?_balanced (h : BalancesFrom scan angleRole opened s) (depth : Nat)
    (rest : List Char) : closeBracket? scan (depth + opened) (s ++ rest) =
      (closeBracket? .plain depth rest).map fun (before, after) => (s ++ before, after) := by
  induction s generalizing scan opened with
  | nil =>
    obtain ⟨rfl, rfl⟩ := BalancesFrom.nil_iff.mp h
    simp
  | cons c r ih =>
    rw [List.cons_append]
    cases hshows : scan.shows c with
    | false =>
      rw [closeBracket?_hidden hshows, ih ((BalancesFrom.hidden_iff hshows).mp h)]
      simp [Function.comp_def]
    | true =>
      obtain ⟨rfl, hquote⟩ := Scan.shows_iff.mp hshows
      cases hrole : angleRole c with
      | opening =>
        obtain rfl := angleRole_eq_opening.mp hrole
        rw [closeBracket?_open, Nat.add_assoc, ih ((BalancesFrom.opening_iff hquote rfl).mp h)]
        simp [Function.comp_def]
      | closing =>
        obtain rfl := angleRole_eq_closing.mp hrole
        cases opened with
        | zero => exact absurd h (BalancesFrom.not_closing hquote rfl)
        | succ fewer =>
          rw [← Nat.add_assoc, closeBracket?_close,
            ih ((BalancesFrom.closing_iff hquote rfl).mp h)]
          simp [Function.comp_def]
      | inner => exact absurd hrole angleRole_ne_inner
      | other =>
        rw [closeBracket?_other hquote hrole, ih ((BalancesFrom.other_iff hquote hrole).mp h)]
        simp [Function.comp_def]

/-- A character in front of a text stands in front of what a search behind it passes over. -/
theorem closed_cons {later : Scan} {still : Nat} {c : Char} {before after : List Char}
    {found : Option (List Char × List Char)}
    (h : (found.map fun (b, a) => (c :: b, a)) = some (before, after))
    (hfound : ∀ {b}, found = some (b, after) →
      s = b ++ '>' :: after ∧ BalancesFrom later angleRole still b)
    (hc : ∀ {t}, BalancesFrom later angleRole still t →
      BalancesFrom scan angleRole opened (c :: t)) :
    c :: s = before ++ '>' :: after ∧ BalancesFrom scan angleRole opened before := by
  obtain ⟨⟨b, a⟩, hb, he⟩ := Option.map_eq_some_iff.mp h
  cases he
  obtain ⟨rfl, hbalances⟩ := hfound hb
  exact ⟨rfl, hc hbalances⟩

/-- The bracket that the search finds stands behind a balanced text. -/
theorem closeBracket?_eq_some_iff {before after : List Char} :
    closeBracket? scan opened s = some (before, after) ↔
      s = before ++ '>' :: after ∧ BalancesFrom scan angleRole opened before := by
  constructor
  · intro h
    induction s generalizing scan opened before with
    | nil => cases h
    | cons c r ih =>
      cases hshows : scan.shows c with
      | false =>
        rw [closeBracket?_hidden hshows] at h
        exact closed_cons h ih (BalancesFrom.hidden_iff hshows).mpr
      | true =>
        obtain ⟨rfl, hquote⟩ := Scan.shows_iff.mp hshows
        cases hrole : angleRole c with
        | opening =>
          obtain rfl := angleRole_eq_opening.mp hrole
          rw [closeBracket?_open] at h
          exact closed_cons h ih (BalancesFrom.opening_iff hquote rfl).mpr
        | closing =>
          obtain rfl := angleRole_eq_closing.mp hrole
          cases opened with
          | zero =>
            cases h
            exact ⟨rfl, BalancesFrom.nil_iff.mpr ⟨rfl, rfl⟩⟩
          | succ fewer =>
            rw [closeBracket?_close] at h
            exact closed_cons h ih (BalancesFrom.closing_iff hquote rfl).mpr
        | inner => exact absurd hrole angleRole_ne_inner
        | other =>
          rw [closeBracket?_other hquote hrole] at h
          exact closed_cons h ih (BalancesFrom.other_iff hquote hrole).mpr
  · rintro ⟨rfl, hbefore⟩
    have hpass := closeBracket?_balanced hbefore 0 ('>' :: after)
    simpa [closeBracket?_end] using hpass

end ClosingBracket

/-! ## The closing quote -/

/-- The backtick that ends a quoted name is found behind the inside of it. -/
theorem closeQuote?_body {name : List Char} (h : QuotedBody name) (after : List Char) :
    closeQuote? .quoted (name ++ backtick :: after) = some (name, after) := by
  induction h with
  | nil => rfl
  | plain hquote hescape _ ih => simp [closeQuote?, Scan.next, hquote, hescape, ih]
  | escaped _ ih => simp [closeQuote?, Scan.next, ih]

/-- What the search for the closing backtick passes over is the inside of a quoted name. -/
theorem closeQuote?_eq_some_iff {s name after : List Char} :
    closeQuote? .quoted s = some (name, after) ↔
      s = name ++ backtick :: after ∧ QuotedBody name := by
  constructor
  · intro h
    -- behind a backslash the search takes two characters at once
    induction hn : s.length using Nat.strong_induction_on generalizing s name with
    | _ n ih =>
      subst hn
      cases s with
      | nil => cases h
      | cons c r =>
        unfold closeQuote? at h
        by_cases hescape : c = '\\'
        · subst hescape
          cases r with
          | nil => cases h
          | cons d t =>
            obtain ⟨⟨b, a⟩, hr, he⟩ := Option.map_eq_some_iff.mp h
            cases he
            obtain ⟨⟨b', a'⟩, ht, he⟩ := Option.map_eq_some_iff.mp hr
            cases he
            obtain ⟨rfl, hb⟩ := ih t.length (by simp only [List.length_cons]; omega) ht rfl
            exact ⟨rfl, .escaped hb⟩
        · by_cases hquote : c = backtick
          · subst hquote
            cases h
            exact ⟨rfl, .nil⟩
          · have hnext : Scan.next .quoted c = .quoted := by simp [Scan.next, hescape, hquote]
            rw [hnext, if_neg (by decide)] at h
            obtain ⟨⟨b, a⟩, hr, he⟩ := Option.map_eq_some_iff.mp h
            cases he
            obtain ⟨rfl, hb⟩ := ih r.length (by simp) hr rfl
            exact ⟨rfl, .plain hquote hescape hb⟩
  · rintro ⟨rfl, hname⟩
    exact closeQuote?_body hname after

/-! ## The pieces between commas -/

/-- A text cut at its outer commas: in every piece the brackets are balanced, and the commas left
stand inside of them. -/
inductive Pieces : Scan → Nat → List Char → List (List Char) → Prop
  | last {scan : Scan} {opened : Nat} {s : List Char} (h : BalancesFrom scan pieceRole opened s) :
      Pieces scan opened s [s]
  | cut {scan : Scan} {opened : Nat} {s rest : List Char} {others : List (List Char)}
      (h : BalancesFrom scan pieceRole opened s) (hrest : Pieces .plain 0 rest others) :
      Pieces scan opened (s ++ ',' :: rest) (s :: others)

section Commas

variable {scan : Scan} {opened : Nat} {s : List Char}

/-- A character in front of a text belongs to its first piece. -/
theorem Pieces.prepend {later : Scan} {still : Nat} {c : Char} {pieces : List (List Char)}
    (h : Pieces later still s pieces) (hc : ∀ {t}, BalancesFrom later pieceRole still t →
      BalancesFrom scan pieceRole opened (c :: t)) :
    Pieces scan opened (c :: s) (StoreType.prepend c pieces) := by
  cases h with
  | last ht => exact .last (hc ht)
  | cut ht hrest => exact .cut (hc ht) hrest

/-- The split goes on after a character that it does not see. -/
theorem pieces?_hidden {c : Char} (h : scan.shows c = false) (depth : Nat) (rest : List Char) :
    pieces? scan depth (c :: rest) = (pieces? (scan.next c) depth rest).map (prepend c) := by
  rw [pieces?.eq_def]
  simp [h]

/-- The split goes on after a character that is not counted. -/
theorem pieces?_other {c : Char} (hquote : c ≠ backtick) (hrole : pieceRole c = .other)
    (depth : Nat) (rest : List Char) :
    pieces? .plain depth (c :: rest) = (pieces? .plain depth rest).map (prepend c) := by
  obtain ⟨⟨hopen, hclose⟩, hparen⟩ := pieceRole_eq_other.mp hrole
  exact pieces?_plain ⟨hopen, hclose, hquote⟩ hparen

/-- A text whose commas stand inside of its brackets belongs to one piece. -/
theorem pieces?_balanced (h : BalancesFrom scan pieceRole opened s) (depth : Nat)
    (rest : List Char) : pieces? scan (depth + opened) (s ++ rest) =
      (pieces? .plain depth rest).map (s.foldr prepend) := by
  induction s generalizing scan opened with
  | nil =>
    obtain ⟨rfl, rfl⟩ := BalancesFrom.nil_iff.mp h
    simp
  | cons c r ih =>
    rw [List.cons_append]
    cases hshows : scan.shows c with
    | false =>
      rw [pieces?_hidden hshows, ih ((BalancesFrom.hidden_iff hshows).mp h)]
      simp [Function.comp_def]
    | true =>
      obtain ⟨rfl, hquote⟩ := Scan.shows_iff.mp hshows
      cases hrole : pieceRole c with
      | opening =>
        rw [pieces?_open (pieceRole_eq_opening.mp hrole), Nat.add_assoc,
          ih ((BalancesFrom.opening_iff hquote hrole).mp h)]
        simp [Function.comp_def]
      | closing =>
        cases opened with
        | zero => exact absurd h (BalancesFrom.not_closing hquote hrole)
        | succ fewer =>
          rw [← Nat.add_assoc, pieces?_close (pieceRole_eq_closing.mp hrole),
            ih ((BalancesFrom.closing_iff hquote hrole).mp h)]
          simp [Function.comp_def]
      | inner =>
        obtain rfl := pieceRole_eq_inner.mp hrole
        obtain ⟨hinside, hr⟩ := (BalancesFrom.inner_iff hquote hrole).mp h
        rw [pieces?_comma (by omega), ih hr]
        simp [Function.comp_def]
      | other =>
        rw [pieces?_other hquote hrole, ih ((BalancesFrom.other_iff hquote hrole).mp h)]
        simp [Function.comp_def]

/-- A text whose quoted names end is split into its pieces, and into nothing else. -/
theorem pieces?_eq_some_iff (hs : Ended scan s) {pieces : List (List Char)} :
    pieces? scan opened s = some pieces ↔ Pieces scan opened s pieces := by
  constructor
  · intro h
    induction s generalizing scan opened pieces with
    | nil =>
      unfold pieces? at h
      split at h
      next hopened =>
        cases h
        exact .last (BalancesFrom.nil_iff.mpr ⟨Ended.nil_iff.mp hs, hopened⟩)
      next => cases h
    | cons c r ih =>
      cases hshows : scan.shows c with
      | false =>
        rw [pieces?_hidden hshows] at h
        obtain ⟨ps, hr, rfl⟩ := Option.map_eq_some_iff.mp h
        exact (ih ((Ended.hidden_iff hshows).mp hs) hr).prepend (BalancesFrom.hidden_iff hshows).mpr
      | true =>
        obtain ⟨rfl, hquote⟩ := Scan.shows_iff.mp hshows
        replace ih {opened : Nat} {pieces : List (List Char)}
            (hr : pieces? .plain opened r = some pieces) : Pieces .plain opened r pieces :=
          ih ((Ended.shown_iff hquote).mp hs) hr
        cases hrole : pieceRole c with
        | opening =>
          rw [pieces?_open (pieceRole_eq_opening.mp hrole)] at h
          obtain ⟨ps, hr, rfl⟩ := Option.map_eq_some_iff.mp h
          exact (ih hr).prepend (BalancesFrom.opening_iff hquote hrole).mpr
        | closing =>
          cases opened with
          | zero =>
            rw [pieces?_unopened (pieceRole_eq_closing.mp hrole)] at h
            cases h
          | succ fewer =>
            rw [pieces?_close (pieceRole_eq_closing.mp hrole)] at h
            obtain ⟨ps, hr, rfl⟩ := Option.map_eq_some_iff.mp h
            exact (ih hr).prepend (BalancesFrom.closing_iff hquote hrole).mpr
        | inner =>
          obtain rfl := pieceRole_eq_inner.mp hrole
          cases opened with
          | zero =>
            rw [pieces?_separator] at h
            obtain ⟨ps, hr, rfl⟩ := Option.map_eq_some_iff.mp h
            exact .cut (BalancesFrom.nil_iff.mpr ⟨rfl, rfl⟩) (ih hr)
          | succ fewer =>
            rw [pieces?_comma fewer.succ_pos] at h
            obtain ⟨ps, hr, rfl⟩ := Option.map_eq_some_iff.mp h
            exact (ih hr).prepend fun ht =>
              (BalancesFrom.inner_iff hquote hrole).mpr ⟨fewer.succ_pos, ht⟩
        | other =>
          rw [pieces?_other hquote hrole] at h
          obtain ⟨ps, hr, rfl⟩ := Option.map_eq_some_iff.mp h
          exact (ih hr).prepend (BalancesFrom.other_iff hquote hrole).mpr
  · intro h
    clear hs
    induction h with
    | last h =>
      have hpass := pieces?_balanced h 0 []
      simpa [pieces?, foldr_prepend] using hpass
    | @cut _ _ _ rest _ h _ ih =>
      have hpass := pieces?_balanced h 0 (',' :: rest)
      simpa [pieces?_separator, ih, foldr_prepend] using hpass

/-- A text is split when its brackets are balanced. -/
theorem isSome_pieces?_iff (hs : Ended scan s) :
    (pieces? scan opened s).isSome ↔ BalancesFrom scan nestingRole opened s := by
  induction s generalizing scan opened with
  | nil => simp [pieces?, BalancesFrom.nil_iff, Ended.nil_iff.mp hs]
  | cons c r ih =>
    cases hshows : scan.shows c with
    | false =>
      rw [pieces?_hidden hshows, Option.isSome_map, BalancesFrom.hidden_iff hshows,
        ih ((Ended.hidden_iff hshows).mp hs)]
    | true =>
      obtain ⟨rfl, hquote⟩ := Scan.shows_iff.mp hshows
      replace ih {opened : Nat} : (pieces? .plain opened r).isSome ↔
          BalancesFrom .plain nestingRole opened r := ih ((Ended.shown_iff hquote).mp hs)
      have hnesting := nestingRole_eq (c := c)
      cases hrole : pieceRole c with
      | opening =>
        rw [pieces?_open (pieceRole_eq_opening.mp hrole), Option.isSome_map, ih,
          BalancesFrom.opening_iff hquote (by simpa [hrole] using hnesting)]
      | closing =>
        have hclosing : nestingRole c = .closing := by simpa [hrole] using hnesting
        cases opened with
        | zero =>
          rw [pieces?_unopened (pieceRole_eq_closing.mp hrole)]
          simpa using BalancesFrom.not_closing hquote hclosing
        | succ fewer =>
          rw [pieces?_close (pieceRole_eq_closing.mp hrole), Option.isSome_map, ih,
            BalancesFrom.closing_iff hquote hclosing]
      | inner =>
        rw [BalancesFrom.other_iff hquote (by simpa [hrole] using hnesting), ← ih]
        obtain rfl := pieceRole_eq_inner.mp hrole
        cases opened with
        | zero => rw [pieces?_separator, Option.isSome_map]
        | succ fewer => rw [pieces?_comma fewer.succ_pos, Option.isSome_map]
      | other =>
        rw [BalancesFrom.other_iff hquote (by simpa [hrole] using hnesting), ← ih,
          pieces?_other hquote hrole, Option.isSome_map]

/-- Every scan passes through a text that is balanced for it. -/
theorem Passes.of_balanced (hangle : Balanced angleRole s) (hpiece : Balanced pieceRole s) :
    Passes 0 s where
  closes depth rest := closeBracket?_balanced hangle depth rest
  splits depth _ rest := pieces?_balanced hpiece depth rest

/-- A quoted name passes, whatever characters it has. -/
theorem Passes.quotedName {least : Nat} (name : List Char) : Passes least (quotedName name) := by
  have hbalanced (role : Char → Role) : Balanced role (Text.quotedName name) :=
    ⟨[], .quotedName name, Balances.nil_iff.mpr rfl⟩
  exact (of_balanced (hbalanced angleRole) (hbalanced pieceRole)).mono (Nat.zero_le least)

end Commas

end TypedSql.StoreType
