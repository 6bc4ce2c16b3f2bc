import TypedLisp.Error
import TypedLisp.Text.Blank
import TypedLisp.Token.Basic
import TypedLisp.Token.Cursor

/-!
# Tokens of a source text

A source text is cut into lexemes. Runs of blanks and comments are skipped; a
comment starts with two slashes where a token could start and ends before its
newline. A string literal runs to the first double quote that no backslash
escapes. A parenthesis stands alone. Every other character starts a word, which
runs to the next blank, parenthesis or double quote; a word is a number when
all of it is written as one, and a boolean when it is `true` or `false`.

Every character starts a lexeme except a double quote whose literal does not
end: there the text is rejected.
-/

set_option autoImplicit false

namespace TypedLisp

open Text (isBlank byteLength)

namespace Token

/-! ## String literals -/

/-- Splits the text after an opening double quote at the closing one. A
backslash takes the next character with it, which may not be a newline. -/
def splitLiteral : List Char → Option (List Char × List Char)
  | [] => none
  | '"' :: rest => some ([], rest)
  | ['\\'] => none
  | '\\' :: escaped :: rest =>
      if escaped = '\n' then none
      else (splitLiteral rest).map fun (body, after) => ('\\' :: escaped :: body, after)
  | character :: rest =>
      (splitLiteral rest).map fun (body, after) => (character :: body, after)

/-- The text that the body of a string literal denotes. A backslash escapes
`n`, `t`, a backslash and a double quote; any other backslash stands for
itself. -/
def unescape : List Char → List Char
  | [] => []
  | '\\' :: 'n' :: rest => '\n' :: unescape rest
  | '\\' :: 't' :: rest => '\t' :: unescape rest
  | '\\' :: '\\' :: rest => '\\' :: unescape rest
  | '\\' :: '"' :: rest => '"' :: unescape rest
  | character :: rest => character :: unescape rest

/-! ## Words -/

/-- Whether a character can stand in a word. -/
def isWordChar (character : Char) : Bool :=
  !(isBlank character || character == '(' || character == ')' || character == '"')

/-- Whether a text is a nonempty list of decimal digits. -/
def isDigits (text : List Char) : Bool := !text.isEmpty && text.all Char.isDigit

/-- Whether a text is written as a number without a sign: digits, or digits, a
point and digits. -/
def isUnsignedNumeral (text : List Char) : Bool :=
  match text.dropWhile Char.isDigit with
  | [] => isDigits text
  | point :: fraction =>
      point == '.' && isDigits (text.takeWhile Char.isDigit) && isDigits fraction

/-- Whether a text is written as a number. -/
def isNumeral : List Char → Bool
  | '-' :: text => isUnsignedNumeral text
  | text => isUnsignedNumeral text

/-- The kind of token that a word is. -/
def wordKind (word : List Char) : TokenKind :=
  if isNumeral word then .number
  else if word = ['t', 'r', 'u', 'e'] ∨ word = ['f', 'a', 'l', 's', 'e'] then .boolean
  else .symbol

/-! ## Lexemes -/

/-- Characters of the source that are skipped together, or that make up one
token of a kind and a value. -/
structure Lexeme where
  source : List Char
  meaning : Option (TokenKind × String)
  deriving DecidableEq, Repr

/-- The lexeme that a text starts with. -/
def lexeme? : List Char → Option Lexeme
  | [] => none
  | character :: rest =>
      if isBlank character then some ⟨character :: rest.takeWhile isBlank, none⟩
      else if character = '/' ∧ rest.head? = some '/' then
        some ⟨character :: rest.takeWhile (· ≠ '\n'), none⟩
      else if character = '"' then
        (splitLiteral rest).map fun (body, _) =>
          ⟨'"' :: (body ++ ['"']), some (.string, String.ofList (unescape body))⟩
      else if character = '(' then some ⟨['('], some (.openParen, "(")⟩
      else if character = ')' then some ⟨[')'], some (.closeParen, ")")⟩
      else
        let word := character :: rest.takeWhile isWordChar
        some ⟨word, some (wordKind word, String.ofList word)⟩

/-- The token of a lexeme at a cursor, if it is not skipped. -/
def Lexeme.token? (lexeme : Lexeme) (cursor : Cursor) : Option Token :=
  lexeme.meaning.map fun (kind, value) => ⟨kind, value, cursor.span (byteLength lexeme.source)⟩

theorem source_ne_nil_of_lexeme? {text : List Char} {lexeme : Lexeme}
    (found : lexeme? text = some lexeme) : lexeme.source ≠ [] := by
  cases text with
  | nil => simp [lexeme?] at found
  | cons character rest =>
      simp only [lexeme?] at found
      split at found
      · obtain rfl := Option.some.inj found; simp
      split at found
      · obtain rfl := Option.some.inj found; simp
      split at found
      · obtain ⟨_, _, rfl⟩ := Option.map_eq_some_iff.1 found; simp
      split at found
      · obtain rfl := Option.some.inj found; simp
      split at found
      · obtain rfl := Option.some.inj found; simp
      · obtain rfl := Option.some.inj found; simp

/-! ## Whole texts -/

set_option linter.unusedVariables false in
/-- The tokens from a cursor on, closed by the end of the input. -/
def lexFrom (cursor : Cursor) : Except Error (List Token) :=
  if cursor.rest = [] then .ok [⟨.endOfInput, "EOF", cursor.span 0⟩]
  else
    match found : lexeme? cursor.rest with
    | none =>
        .error ((Fault.unrecognisedToken (String.singleton cursor.next)).atPosition cursor.position)
    | some lexeme =>
        (lexFrom (cursor.past lexeme.source)).map ((lexeme.token? cursor).toList ++ ·)
termination_by cursor.rest.length
decreasing_by
  rename_i nonempty
  have := List.length_pos_iff.2 (source_ne_nil_of_lexeme? found)
  have := List.length_pos_iff.2 nonempty
  simp only [Cursor.past, List.length_drop]
  omega

theorem lexFrom_of_rest_eq_nil {cursor : Cursor} (atEnd : cursor.rest = []) :
    lexFrom cursor = .ok [⟨.endOfInput, "EOF", cursor.span 0⟩] := by
  rw [lexFrom, if_pos atEnd]

theorem lexFrom_of_lexeme?_eq_none {cursor : Cursor} (more : cursor.rest ≠ [])
    (missing : lexeme? cursor.rest = none) :
    lexFrom cursor = .error ((Fault.unrecognisedToken
      (String.singleton cursor.next)).atPosition cursor.position) := by
  rw [lexFrom, if_neg more]
  split
  · rfl
  · rename_i found
    rw [missing] at found
    cases found

theorem lexFrom_of_lexeme?_eq_some {cursor : Cursor} {lexeme : Lexeme}
    (found : lexeme? cursor.rest = some lexeme) :
    lexFrom cursor = (lexFrom (cursor.past lexeme.source)).map
      ((lexeme.token? cursor).toList ++ ·) := by
  have more : cursor.rest ≠ [] := by
    intro atEnd
    rw [atEnd] at found
    cases found
  rw [lexFrom, if_neg more]
  split
  · rename_i missing
    rw [missing] at found
    cases found
  · rename_i other same
    obtain rfl : other = lexeme := Option.some.inj (same.symm.trans found)
    rfl

/-- The tokens of a source text. -/
def lex (source : String) (file? : Option String) : Except Error (List Token) :=
  lexFrom (Cursor.ofText source file?)

end Token

end TypedLisp
