import TypedLisp.Number.Decimal
import TypedLisp.Token.Lexer

/-!
# Expressions of a source text

Expressions are read from tokens in one pass. The lists that are open but not
yet closed form a stack, each with the items read so far, the latest first. A
closing parenthesis makes a list of the innermost items and puts it into the
list around it; where no list is open, an atom or a closed list is the
expression.

Reading one expression also yields the tokens that are left, after a failure
too. Every expression takes at least one token (`length_readFrom_lt`), so that
reading all of them ends.
-/

set_option autoImplicit false

namespace TypedLisp.Expr

/-- The position that is reported when the tokens run out: the end of the last
one. -/
def endPosition (tokens : List Token) : Position :=
  match tokens.getLast? with
  | some token => token.span.stopPosition
  | none => .nowhere

/-- The error of a token that cannot stand where it does. -/
def unexpected (token : Token) : Error :=
  (Fault.unexpectedToken token.value).atPosition token.span.startPosition

/-- The error of an input that ends too early. -/
def unexpectedEnd (stop : Position) : Error :=
  (Fault.unexpectedToken "EOF").atPosition stop

/-- The atom that a token denotes, if it denotes one. A number token that is not
written as a number is an error. -/
def atom? (token : Token) : Option (Except Error Expr) :=
  match token.kind with
  | .number =>
      match Number.ofText? token.value.toList with
      | some value => some (.ok (.number value))
      | none => some (.error (unexpected token))
  | .string => some (.ok (.string token.value))
  | .boolean => some (.ok (.boolean (token.value = "true")))
  | .symbol => some (.ok (.symbol token.value))
  | .endOfInput | .openParen | .closeParen => none

/-- Reads one expression inside the open lists, innermost first. The tokens that
are left come with the outcome. -/
def readFrom (stop : Position) : List (List Expr) → List Token → Except Error Expr × List Token
  | _, [] => (.error (unexpectedEnd stop), [])
  | opened, token :: tokens =>
      match atom? token with
      | some (.error error) => (.error error, tokens)
      | some (.ok atom) =>
          match opened with
          | [] => (.ok atom, tokens)
          | items :: outer => readFrom stop ((atom :: items) :: outer) tokens
      | none =>
          match token.kind, opened with
          | .openParen, opened => readFrom stop ([] :: opened) tokens
          | .closeParen, [] => (.error (unexpected token), tokens)
          | .closeParen, [items] => (.ok (.list items.reverse), tokens)
          | .closeParen, items :: around :: outer =>
              readFrom stop ((.list items.reverse :: around) :: outer) tokens
          | _, [] => (.error (unexpectedEnd stop), tokens)
          | _, _ :: _ => (.error (unexpectedEnd stop), token :: tokens)

/-- An expression that is read takes at least one token. -/
theorem length_readFrom_lt {stop : Position} {opened : List (List Expr)} {tokens left : List Token}
    {expression : Expr} (read : readFrom stop opened tokens = (.ok expression, left)) :
    left.length < tokens.length := by
  induction tokens generalizing opened with
  | nil => simp [readFrom] at read
  | cons token tokens ih =>
      have step {opened : List (List Expr)}
          (read : readFrom stop opened tokens = (.ok expression, left)) :
          left.length < (token :: tokens).length :=
        Nat.lt_succ_of_lt (ih read)
      simp only [readFrom] at read
      split at read
      · simp at read
      · split at read
        · simp only [Prod.mk.injEq] at read; simp [← read.2]
        · exact step read
      · split at read
        · exact step read
        · simp at read
        · simp only [Prod.mk.injEq] at read; simp [← read.2]
        · exact step read
        · simp at read
        · simp at read

/-- Whether no expression is left to read. -/
def atEnd : List Token → Bool
  | [] => true
  | token :: _ => token.kind = .endOfInput

set_option linter.unusedVariables false in
/-- Reads expressions up to the end of the input. -/
def readAllFrom (stop : Position) (tokens : List Token) : Except Error (List Expr) :=
  if atEnd tokens then .ok []
  else
    match read : readFrom stop [] tokens with
    | (.error error, _) => .error error
    | (.ok expression, left) => (readAllFrom stop left).map (expression :: ·)
termination_by tokens.length
decreasing_by exact length_readFrom_lt read

theorem readAllFrom_of_atEnd {stop : Position} {tokens : List Token} (done : atEnd tokens = true) :
    readAllFrom stop tokens = .ok [] := by
  rw [readAllFrom, if_pos done]

theorem readAllFrom_of_error {stop : Position} {tokens left : List Token} {error : Error}
    (more : atEnd tokens = false) (read : readFrom stop [] tokens = (.error error, left)) :
    readAllFrom stop tokens = .error error := by
  rw [readAllFrom, if_neg (by simp [more])]
  split
  · rename_i same
    rw [read] at same
    cases same
    rfl
  · rename_i same
    rw [read] at same
    cases same

theorem readAllFrom_of_ok {stop : Position} {tokens left : List Token} {expression : Expr}
    (more : atEnd tokens = false) (read : readFrom stop [] tokens = (.ok expression, left)) :
    readAllFrom stop tokens = (readAllFrom stop left).map (expression :: ·) := by
  rw [readAllFrom, if_neg (by simp [more])]
  split
  · rename_i same
    rw [read] at same
    cases same
  · rename_i same
    rw [read] at same
    cases same
    rfl

/-- The expressions of a list of tokens. -/
def readAll (tokens : List Token) : Except Error (List Expr) :=
  readAllFrom (endPosition tokens) tokens

/-- Reads a given number of expressions one after the other, going on after
failures with the tokens that are left. -/
def readTimes (stop : Position) : Nat → List Token → List (Except Error Expr)
  | 0, _ => []
  | count + 1, tokens =>
      let (outcome, left) := readFrom stop [] tokens
      outcome :: readTimes stop count left

/-- The expressions of a source text. -/
def readText (source : String) (file? : Option String) : Except Error (List Expr) := do
  readAll (← Token.lex source file?)

/-- The program of a source text: a block of all its expressions. -/
def readProgram (source : String) (file? : Option String) : Except Error Expr := do
  return .list (.symbol "begin" :: (← readText source file?))

end TypedLisp.Expr
