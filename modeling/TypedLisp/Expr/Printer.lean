import TypedLisp.Expr.Basic
import TypedLisp.Number.Shortest
import TypedLisp.Text.Quoted

/-!
# Expressions as text

Symbols are written as they are, numbers with the fewest digits, strings
between double quotes, and lists between parentheses with single spaces.
-/

set_option autoImplicit false

namespace TypedLisp.Expr

mutual

/-- The characters of an expression's text. -/
def render : Expr → List Char
  | .number value => value.render
  | .string text => (Text.quoted text).toList
  | .boolean true => ['t', 'r', 'u', 'e']
  | .boolean false => ['f', 'a', 'l', 's', 'e']
  | .symbol name => name.toList
  | .list items => '(' :: renderItems items ++ [')']

/-- The characters of a list of expressions, separated by single spaces. -/
def renderItems : List Expr → List Char
  | [] => []
  | [item] => render item
  | item :: next :: items => render item ++ ' ' :: renderItems (next :: items)

end

/-- The text of an expression. -/
def text (expression : Expr) : String := String.ofList expression.render

end TypedLisp.Expr
