import TypedLisp.Position

/-!
# Tokens

A token is a lexical unit of a source text with the value that it denotes and
the span that it covers.
-/

set_option autoImplicit false

namespace TypedLisp

/-- The kinds of lexical units. -/
inductive TokenKind where
  | endOfInput
  | number
  | string
  | boolean
  | symbol
  | openParen
  | closeParen
  deriving DecidableEq, Repr

/-- The name of a kind of lexical unit. -/
def TokenKind.name : TokenKind → String
  | .endOfInput => "EOF"
  | .number => "Number"
  | .string => "String"
  | .boolean => "Boolean"
  | .symbol => "Symbol"
  | .openParen => "OpenParen"
  | .closeParen => "CloseParen"

/-- A lexical unit, its value and where it stands. -/
structure Token where
  kind : TokenKind
  value : String
  span : Span
  deriving DecidableEq, Repr

/-- A description of a token by its kind and value. -/
def Token.describe (token : Token) : String :=
  "Token \x7b\nkind: " ++ token.kind.name ++ ",\nvalue: " ++ token.value ++ "\x7d"

end TypedLisp
