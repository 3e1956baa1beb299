/-!
# Quoted text

A quoted name stands between backticks and a string literal between single quotes. In both a
backslash introduces an escape: in names it protects a backtick or a backslash, in literals it
also spells the line breaks and the tab.
-/

namespace TypedSql.Text

/-- Text with each character that has an escape code written as a backslash and that code. -/
def escapeWith (code : Char → Option Char) : List Char → List Char
  | [] => []
  | c :: r =>
    match code c with
    | some d => '\\' :: d :: escapeWith code r
    | none => c :: escapeWith code r

/-- A backtick, the delimiter of quoted names. -/
def backtick : Char := '\x60'

/-- In a name the delimiter and the backslash are escaped by themselves. -/
def nameCode (c : Char) : Option Char := if c = backtick ∨ c = '\\' then some c else none

/-- In a literal the quote, the backslash, the line breaks and the tab are escaped. -/
def literalCode : Char → Option Char
  | '\\' => some '\\'
  | '\'' => some '\''
  | '\n' => some 'n'
  | '\r' => some 'r'
  | '\t' => some 't'
  | _ => none

/-- A name between backticks. -/
def quotedName (s : List Char) : List Char := backtick :: (escapeWith nameCode s ++ [backtick])

/-- A string literal between single quotes. -/
def quotedLiteral (s : List Char) : List Char := '\'' :: (escapeWith literalCode s ++ ['\''])

/-- Induction over escaped text, by the characters that stand for themselves and those that have a
code. -/
theorem escapeWith_induction {code : Char → Option Char} {motive : List Char → Prop}
    (nil : motive []) (plain : ∀ c s, code c = none → motive s → motive (c :: s))
    (escaped : ∀ d s, motive s → motive ('\\' :: d :: s)) (s : List Char) :
    motive (escapeWith code s) := by
  induction s with
  | nil => exact nil
  | cons c r ih =>
    rw [escapeWith]
    cases h : code c with
    | none => exact plain c _ h ih
    | some d => exact escaped d _ ih

/-- The characters of a name that stand for themselves. -/
theorem nameCode_eq_none {c : Char} : nameCode c = none ↔ c ≠ backtick ∧ c ≠ '\\' := by
  simp [nameCode]

end TypedSql.Text
