import RomanInvoice.Numeral
import RomanInvoice.Operator
import RomanInvoice.Text.Span

/-!
# Tokens

An expression is a row of numerals and operators. A token is one of these together with the span of
the text that it was read from; the text of a numeral may differ from what stands there, since Roman
letters are kept as capitals.
-/

namespace RomanInvoice

/-- What a token is, wherever it stands. -/
inductive Lexeme where
  | operator (op : Operator)
  | numeral (numeral : Numeral)
  deriving DecidableEq, Repr

namespace Lexeme

/-- The written form of a lexeme. -/
def text : Lexeme → Text
  | operator op => [op.toChar]
  | numeral n => n.text

/-- Whether a lexeme is an operator. -/
def isOperator : Lexeme → Bool
  | operator _ => true
  | numeral _ => false

/-- Lexemes in their normal form: one after the other, with a single space between two. -/
def normalForm (lexemes : List Lexeme) : Text :=
  [' '].intercalate (lexemes.map text)

end Lexeme

/-- A lexeme and the span that it was read from. -/
structure Token where
  lexeme : Lexeme
  span : Span
  deriving DecidableEq, Repr

namespace Token

/-- The written form of a token. -/
def text (token : Token) : Text :=
  token.lexeme.text

/-- The normal form of the lexemes of tokens. -/
def normalForm (tokens : List Token) : Text :=
  Lexeme.normalForm (tokens.map lexeme)

end Token

end RomanInvoice
