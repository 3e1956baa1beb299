import Mathlib.Data.List.Chain
import TypedSql.Sql.Emission

/-!
# Tokens of SQL text

Written SQL as a sequence of tokens. Columns, constants, parameters, types and function names are
single words; everything else is a sign or a keyword. A minus sign is the same token between two
operands and in front of one, and every parenthesis is the same token whatever it encloses, so
that nothing but the grammar tells the uses apart.

In a text two words that follow each other have a blank between them, and so have two signs, while
brackets, commas and dots may stand next to anything.
-/

namespace TypedSql

namespace Sql

/-- A token of SQL text. -/
inductive Token where
  | word (text : List Char)
  | operator (op : BinaryOp)
  | not
  | isIn
  | unnest
  | cast
  | asType
  | offset (mode : IndexMode)
  | openParen
  | closeParen
  | openBracket
  | closeBracket
  | comma
  | dot

/-- The text of a token. -/
def Token.text : Token → List Char
  | .word s => s
  | .operator op => op.text.toList
  | .not => "NOT".toList
  | .isIn => "IN".toList
  | .unnest => "UNNEST".toList
  | .cast => "CAST".toList
  | .asType => "AS".toList
  | .offset mode => mode.text.toList
  | .openParen => ['(']
  | .closeParen => [')']
  | .openBracket => ['[']
  | .closeBracket => [']']
  | .comma => [',']
  | .dot => ['.']

/-- The kinds of text that tokens consist of. -/
inductive Script where
  /-- Names, literals, types, placeholders and keywords. -/
  | letters
  | signs
  /-- Brackets, commas and dots. -/
  | punctuation
deriving DecidableEq, Repr

/-- What the text of a token consists of. -/
def Token.script : Token → Script
  | .word _ | .not | .isIn | .unnest | .cast | .asType | .offset _ => .letters
  | .operator op => if op.isLogical then .letters else .signs
  | .openParen | .closeParen | .openBracket | .closeBracket | .comma | .dot => .punctuation

/-- With nothing between them two tokens would not be read as these: a word goes on in letters, and
a sign in signs. -/
def Token.RunsInto (t u : Token) : Prop := t.script = u.script ∧ t.script ≠ .punctuation

/-- Text that consists of tokens in order behind a token, or behind a blank or nothing. Blanks may
stand anywhere between tokens, and one has to stand where a token would run into the next. -/
inductive SpellsBehind : Option Token → List Token → List Char → Prop
  | nil {before : Option Token} : SpellsBehind before [] []
  | blank {before : Option Token} {tokens : List Token} {s : List Char}
      (h : SpellsBehind none tokens s) : SpellsBehind before tokens (' ' :: s)
  | token {before : Option Token} {t : Token} {tokens : List Token} {s : List Char}
      (ht : ∀ b ∈ before, ¬ b.RunsInto t) (h : SpellsBehind (some t) tokens s) :
      SpellsBehind before (t :: tokens) (t.text ++ s)

/-- Text that consists of tokens in order. -/
def Spells (tokens : List Token) (s : List Char) : Prop := SpellsBehind none tokens s

namespace SpellsBehind

variable {before : Option Token} {t u : Token} {tokens : List Token} {s : List Char}

/-- Any token can stand behind a blank. -/
theorem first (h : SpellsBehind (some t) tokens s) :
    SpellsBehind none (t :: tokens) (t.text ++ s) := h.token (by simp)

/-- Any token can stand behind a bracket, a comma or a dot. -/
theorem behind_punctuation (hu : u.script = .punctuation) (h : SpellsBehind (some t) tokens s) :
    SpellsBehind (some u) (t :: tokens) (t.text ++ s) := by
  refine h.token fun b hb hrun => hrun.2 ?_
  rwa [← Option.some.inj hb]

/-- Brackets, commas and dots can stand behind any token. -/
theorem punctuation (ht : t.script = .punctuation) (h : SpellsBehind (some t) tokens s) :
    SpellsBehind before (t :: tokens) (t.text ++ s) :=
  h.token fun _ _ hrun => hrun.2 (hrun.1.trans ht)

end SpellsBehind

end Sql

open Sql

/-- The tokens of a piece of text. -/
def Lexeme.tokens : Lexeme → List Token
  | .word s => [.word s]
  | .binary op => [.operator op]
  | .unary .not => [.not]
  | .unary .negate => [.operator .subtract]
  | .openParen => [.openParen]
  | .closeParen => [.closeParen]
  | .openBracket => [.openBracket]
  | .closeBracket => [.closeBracket]
  | .comma => [.comma]
  | .openCast => [.cast, .openParen]
  | .castType => [.asType]
  | .inUnnest => [.isIn, .unnest, .openParen]
  | .openIndex mode => [.openBracket, .offset mode, .openParen]
  | .closeIndex => [.closeParen, .closeBracket]
  | .field s => [.dot, .word s]

/-- The tokens of pieces in order. -/
def Lexeme.tokensOfAll (pieces : List Lexeme) : List Token := pieces.flatMap tokens

@[simp]
theorem Lexeme.tokensOfAll_nil : tokensOfAll [] = [] := rfl

@[simp]
theorem Lexeme.tokensOfAll_cons (x : Lexeme) (pieces : List Lexeme) :
    tokensOfAll (x :: pieces) = x.tokens ++ tokensOfAll pieces := rfl

@[simp]
theorem Lexeme.tokensOfAll_append (a b : List Lexeme) :
    tokensOfAll (a ++ b) = tokensOfAll a ++ tokensOfAll b := List.flatMap_append

/-- The token that the text of a piece begins with, none if it begins with a blank. -/
def Lexeme.first? : Lexeme → Option Token
  | .word s => some (.word s)
  | .unary .not => some .not
  | .unary .negate => some (.operator .subtract)
  | .openParen => some .openParen
  | .closeParen | .closeIndex => some .closeParen
  | .openBracket | .openIndex _ => some .openBracket
  | .closeBracket => some .closeBracket
  | .comma => some .comma
  | .openCast => some .cast
  | .field _ => some .dot
  | .binary _ | .castType | .inUnnest => none

/-- The token that the text of a piece ends with, none if it ends with a blank. -/
def Lexeme.last? : Lexeme → Option Token
  | .word s | .field s => some (.word s)
  | .unary .negate => some (.operator .subtract)
  | .openParen | .openCast | .inUnnest | .openIndex _ => some .openParen
  | .closeParen => some .closeParen
  | .openBracket => some .openBracket
  | .closeBracket | .closeIndex => some .closeBracket
  | .binary _ | .unary .not | .comma | .castType => none

/-- The second piece can stand right behind the first. -/
def Lexeme.Joins (x y : Lexeme) : Prop := ∀ t ∈ x.last?, ∀ u ∈ y.first?, ¬ t.RunsInto u

/-- The text of a piece spells its tokens, in front of what is spelled behind the last of them. -/
theorem Lexeme.spellsBehind {before : Option Token} {ts : List Token} {s : List Char} (x : Lexeme)
    (hx : ∀ b ∈ before, ∀ u ∈ x.first?, ¬ b.RunsInto u) (h : SpellsBehind x.last? ts s) :
    SpellsBehind before (x.tokens ++ ts) (x.text ++ s) := by
  have hfirst {u : Token} (hu : x.first? = some u) : ∀ b ∈ before, ¬ b.RunsInto u :=
    fun b hb => hx b hb u hu
  cases x with
  | word | openParen | closeParen | openBracket | closeBracket => exact h.token (hfirst rfl)
  | binary op =>
    have hop : SpellsBehind none (.operator op :: ts) (op.text.toList ++ ' ' :: s) := h.blank.first
    change SpellsBehind before (.operator op :: ts) (' ' :: ((op.text.toList ++ [' ']) ++ s))
    rw [List.append_assoc]
    exact hop.blank
  | unary op =>
    cases op with
    | not => exact h.blank.token (hfirst rfl)
    | negate => exact h.token (hfirst rfl)
  | comma => exact h.blank.token (hfirst rfl)
  | openCast => exact (h.punctuation rfl).token (hfirst rfl)
  | castType =>
    have hname : SpellsBehind none (.asType :: ts) ("AS".toList ++ ' ' :: s) := h.blank.first
    exact hname.blank
  | inUnnest => exact (h.punctuation rfl).first.blank.first.blank
  | openIndex mode =>
    have hopen : SpellsBehind (some .openBracket) (.offset mode :: .openParen :: ts)
        (mode.text.toList ++ '(' :: s) := (h.punctuation rfl).behind_punctuation rfl
    change SpellsBehind before (.openBracket :: .offset mode :: .openParen :: ts)
      ('[' :: ((mode.text.toList ++ ['(']) ++ s))
    rw [List.append_assoc]
    exact hopen.token (hfirst rfl)
  | closeIndex => exact (h.punctuation rfl).token (hfirst rfl)
  | field s => exact (h.behind_punctuation rfl).token (hfirst rfl)

/-- Pieces of which each can stand right behind the one before it. -/
def Lexeme.Spaced (pieces : List Lexeme) : Prop := pieces.IsChain Joins

/-- Pieces that can stand in a row spell their tokens. -/
theorem Lexeme.spells_textOfAll {pieces : List Lexeme} (h : Spaced pieces) :
    Spells (tokensOfAll pieces) (textOfAll pieces) := by
  have hrow (before : Option Token) (hbefore : ∀ b ∈ before, ∀ x ∈ pieces.head?, ∀ u ∈ x.first?,
      ¬ b.RunsInto u) : SpellsBehind before (tokensOfAll pieces) (textOfAll pieces) := by
    induction pieces generalizing before with
    | nil => exact .nil
    | cons x rest ih =>
      obtain ⟨hx, hrest⟩ := List.isChain_cons.mp h
      refine x.spellsBehind (fun b hb => hbefore b hb x rfl) (ih hrest x.last? ?_)
      intro b hb y hy
      exact hx y hy b hb
  exact hrow none (by simp)

namespace Sql

/-- The tokens that writing an expression yields. -/
def tokens (c : Catalog) (e : Expr) (parameters : List Parameter) : List Token :=
  Lexeme.tokensOfAll (lexemes c e parameters).1

end Sql

end TypedSql
