import TypedSql.Expr.Basic

/-!
# Lexemes

The pieces that SQL text is written in. Names, literals, types and placeholders are single words;
operators and brackets carry the blanks around them.
-/

namespace TypedSql

/-- A piece of SQL text. -/
inductive Lexeme where
  /-- A name, a literal, a type or a placeholder. -/
  | word (text : List Char)
  | binary (op : BinaryOp)
  | unary (op : UnaryOp)
  /-- The opening parenthesis of a group or of arguments. -/
  | openParen
  | closeParen
  | openBracket
  | closeBracket
  | comma
  | openCast
  | castType
  | inUnnest
  /-- The start of an index after an array. -/
  | openIndex (mode : IndexMode)
  | closeIndex
  /-- A field after a struct, by its quoted name. -/
  | field (text : List Char)

namespace Lexeme

/-- The text of a piece. -/
def text : Lexeme → List Char
  | .word s => s
  | .binary op => ' ' :: (op.text.toList ++ [' '])
  | .unary op => op.text.toList
  | .openParen => ['(']
  | .closeParen => [')']
  | .openBracket => ['[']
  | .closeBracket => [']']
  | .comma => [',', ' ']
  | .openCast => "CAST(".toList
  | .castType => " AS ".toList
  | .inUnnest => " IN UNNEST(".toList
  | .openIndex mode => '[' :: (mode.text.toList ++ ['('])
  | .closeIndex => [')', ']']
  | .field s => '.' :: s

/-- The text of pieces one after the other. -/
def textOfAll (pieces : List Lexeme) : List Char := pieces.flatMap text

end Lexeme

end TypedSql
