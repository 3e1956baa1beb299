import TypedSql.StoreType.Written

/-!
# Quoted text is read back

A reader of string literals and of quoted names, which undoes escapes. It reads back every content
that was written, whatever follows, and no sooner than at the end of what was written: no content
ends its quotes early, and no two contents are written alike.
-/

namespace TypedSql.Text

/-- How a quoted text is read: the delimiter on both sides, the escapes behind a backslash, and the
characters that cannot stand for themselves. -/
structure Quotation where
  delimiter : Char
  /-- The character that is meant by one behind a backslash. -/
  meaning? : Char → Option Char
  excluded : List Char
  delimiter_ne : delimiter ≠ '\\' := by decide

namespace Quotation

/-- The escapes of string literals. -/
def literalMeaning? : Char → Option Char
  | '\\' => some '\\'
  | '\'' => some '\''
  | 'n' => some '\n'
  | 'r' => some '\r'
  | 't' => some '\t'
  | _ => none

/-- String literals stand on one line. -/
def literal : Quotation where
  delimiter := '\''
  meaning? := literalMeaning?
  excluded := ['\n', '\r']

/-- Quoted names have the escapes of literals, and one for the backtick. -/
def name : Quotation where
  delimiter := backtick
  meaning? c := if c = backtick then some backtick else literalMeaning? c
  excluded := []

variable (q : Quotation)

/-- Reads the inside of a quoted text up to the delimiter: the content, and what follows. -/
def readInside? : List Char → Option (List Char × List Char)
  | [] => none
  | c :: rest =>
    if c = q.delimiter then some ([], rest)
    else if c = '\\' then
      match rest with
      | [] => none
      | d :: rest => do
        let meant ← q.meaning? d
        let (content, after) ← readInside? rest
        return (meant :: content, after)
    else if c ∈ q.excluded then none
    else do
      let (content, after) ← readInside? rest
      return (c :: content, after)

/-- Reads a quoted text: the content, and what follows. -/
def read? : List Char → Option (List Char × List Char)
  | [] => none
  | c :: rest => if c = q.delimiter then q.readInside? rest else none

example : literal.read? "'it\\'s\\\\' = x".toList = some ("it's\\".toList, " = x".toList) := by cbv

example : literal.read? "'two\nlines'".toList = none := by cbv

/-- A choice of codes that the reader undoes: behind a backslash a code means the character that it
was written for, and characters without a code stand for themselves. -/
structure Undoes (code : Char → Option Char) : Prop where
  meaning : ∀ c d, code c = some d → q.meaning? d = some c
  plain : ∀ c, code c = none → c ≠ q.delimiter ∧ c ≠ '\\' ∧ c ∉ q.excluded

/-- A text with an escape is read as the character meant and the rest. -/
theorem readInside?_escape (d : Char) (s : List Char) : q.readInside? ('\\' :: d :: s) =
    (q.meaning? d).bind fun c => (q.readInside? s).map fun (t, after) => (c :: t, after) := by
  rw [readInside?, if_neg q.delimiter_ne.symm, if_pos rfl]
  cases q.meaning? d with
  | none => rfl
  | some c => cases q.readInside? s <;> rfl

/-- A character that can stand for itself does. -/
theorem readInside?_plain {c : Char} (hquote : c ≠ q.delimiter) (hescape : c ≠ '\\')
    (hexcluded : c ∉ q.excluded) (s : List Char) :
    q.readInside? (c :: s) = (q.readInside? s).map fun (t, after) => (c :: t, after) := by
  rw [readInside?.eq_def]
  simp only [if_neg hquote, if_neg hescape, if_neg hexcluded]
  cases q.readInside? s <;> rfl

/-- The delimiter ends the content. -/
theorem readInside?_delimiter (s : List Char) :
    q.readInside? (q.delimiter :: s) = some ([], s) := by
  rw [readInside?.eq_def]
  simp

variable {q}

/-- Escaped characters are read back up to the delimiter. -/
theorem readInside?_escapeWith {code : Char → Option Char} (h : q.Undoes code)
    (s rest : List Char) :
    q.readInside? (escapeWith code s ++ q.delimiter :: rest) = some (s, rest) := by
  induction s with
  | nil => exact q.readInside?_delimiter rest
  | cons c s ih =>
    rw [escapeWith]
    cases hcode : code c with
    | some d =>
      rw [List.cons_append, List.cons_append, readInside?_escape, h.meaning c d hcode, ih]
      rfl
    | none =>
      obtain ⟨hquote, hescape, hexcluded⟩ := h.plain c hcode
      rw [List.cons_append, q.readInside?_plain hquote hescape hexcluded, ih]
      rfl

/-- What has been read does not depend on what follows. -/
theorem readInside?_append {s content after : List Char}
    (h : q.readInside? s = some (content, after)) (more : List Char) :
    q.readInside? (s ++ more) = some (content, after ++ more) := by
  induction s using readInside?.induct q generalizing content with
  | case1 => cases h
  | case2 rest =>
    rw [readInside?_delimiter] at h
    cases h
    exact q.readInside?_delimiter (after ++ more)
  | case3 hquote =>
    rw [readInside?.eq_def] at h
    simp [hquote] at h
  | case4 d rest _ ih =>
    rw [readInside?_escape] at h
    obtain ⟨meant, hmeant, h⟩ := Option.bind_eq_some_iff.mp h
    obtain ⟨⟨inner, _⟩, hrest, he⟩ := Option.map_eq_some_iff.mp h
    cases he
    rw [List.cons_append, List.cons_append, readInside?_escape, hmeant, ih hrest]
    rfl
  | case5 c rest hquote hescape hexcluded =>
    rw [readInside?.eq_def] at h
    simp [hquote, hescape, hexcluded] at h
  | case6 c rest hquote hescape hexcluded ih =>
    rw [q.readInside?_plain hquote hescape hexcluded] at h
    obtain ⟨⟨inner, _⟩, hrest, he⟩ := Option.map_eq_some_iff.mp h
    cases he
    rw [List.cons_append, q.readInside?_plain hquote hescape hexcluded, ih hrest]
    rfl

/-- A way of writing contents that is read back exactly: every content, whatever follows; nothing
before the end of what was written; and other contents from other texts only. -/
structure Exact (q : Quotation) (write : List Char → List Char) : Prop where
  read : ∀ s rest, q.read? (write s ++ rest) = some (s, rest)
  unfinished : ∀ s part missing, part ++ missing = write s → missing ≠ [] → q.read? part = none
  injective : ∀ s t rest rest', write s ++ rest = write t ++ rest' → s = t ∧ rest = rest'

/-- Escaped characters between delimiters are read back exactly. -/
theorem exact_of_undoes {code : Char → Option Char} (h : q.Undoes code) :
    q.Exact fun s => q.delimiter :: (escapeWith code s ++ [q.delimiter]) := by
  have hread (s rest : List Char) :
      q.read? (q.delimiter :: (escapeWith code s ++ [q.delimiter]) ++ rest) = some (s, rest) := by
    rw [List.cons_append, List.append_assoc, List.singleton_append, read?, if_pos rfl]
    exact readInside?_escapeWith h s rest
  refine ⟨hread, fun s part missing hwhole hne => ?_, fun s t rest rest' heq => ?_⟩
  · rw [← Option.not_isSome_iff_eq_none, Option.isSome_iff_exists]
    rintro ⟨⟨content, after⟩, hpart⟩
    have hextended : q.read? (part ++ missing) = some (content, after ++ missing) := by
      cases part with
      | nil => cases hpart
      | cons c inner =>
        rw [read?] at hpart
        obtain ⟨hc, hinner⟩ := Option.ite_none_right_eq_some.mp hpart
        rw [List.cons_append, read?, if_pos hc]
        exact readInside?_append hinner missing
    have hfull := hread s []
    rw [List.append_nil, ← hwhole, hextended] at hfull
    exact hne (List.append_eq_nil_iff.mp (Prod.ext_iff.mp (Option.some.inj hfull)).2).2
  · have hsame := hread s rest
    rw [heq, hread t rest'] at hsame
    cases hsame
    exact ⟨rfl, rfl⟩

/-- The reader of literals undoes the codes of literals. -/
theorem undoes_literalCode : literal.Undoes literalCode where
  meaning c d h := by
    unfold literalCode at h
    split at h
    all_goals cases h
    all_goals rfl
  plain c h := by
    unfold literalCode at h
    split at h
    case h_6 hescape hquote hnewline hreturn _ =>
      exact ⟨hquote, hescape, by simpa [literal] using ⟨hnewline, hreturn⟩⟩
    all_goals cases h

/-- The reader of names undoes the codes of names. -/
theorem undoes_nameCode : name.Undoes nameCode where
  meaning c d h := by
    obtain ⟨hc, hd⟩ := Option.ite_none_right_eq_some.mp h
    obtain rfl := Option.some.inj hd
    rcases hc with rfl | rfl <;> rfl
  plain c h := by
    obtain ⟨hquote, hescape⟩ := nameCode_eq_none.mp h
    exact ⟨hquote, hescape, List.not_mem_nil⟩

/-- String literals and quoted names are exact and end where they were written to end, whatever
their content and whatever follows; and a field name that is not written as it is, an identifier
that is not reserved, is written as a quoted name. -/
theorem exact_quoted :
    literal.Exact quotedLiteral ∧ name.Exact quotedName ∧
      ∀ s, StoreType.fieldName s = s ∧ StoreType.isPlainIdentifier s = true ∧
          StoreType.isReserved s = false ∨
        ∀ rest, name.read? (StoreType.fieldName s ++ rest) = some (s, rest) := by
  have hname : name.Exact quotedName := exact_of_undoes undoes_nameCode
  refine ⟨exact_of_undoes undoes_literalCode, hname, fun s => ?_⟩
  cases hplain : StoreType.isPlainIdentifier s && !StoreType.isReserved s with
  | true =>
    refine .inl ⟨by rw [StoreType.fieldName, if_pos hplain], ?_⟩
    simpa using hplain
  | false =>
    refine .inr fun rest => ?_
    rw [StoreType.fieldName, if_neg (by simp [hplain])]
    exact hname.read s rest

end Quotation

end TypedSql.Text
