import TypedLisp.Position
import TypedLisp.Text.Utf8

/-!
# Cursors

A cursor is a place in a named source text: the characters that are still to
come and the number of bytes that are behind.
-/

set_option autoImplicit false

namespace TypedLisp

/-- A place in a named source text. -/
structure Cursor where
  rest : List Char
  offset : Nat
  file : String
  deriving DecidableEq, Repr

namespace Cursor

/-- The cursor at the start of a text. A text without a name is called
`shell`. -/
def ofText (text : String) (file? : Option String) : Cursor :=
  ⟨text.toList, 0, file?.getD "shell"⟩

/-- Moves forward by a number of bytes. -/
def advance (cursor : Cursor) (count : Nat) : Cursor :=
  { cursor with rest := Text.dropBytes count cursor.rest, offset := cursor.offset + count }

/-- Moves past characters that the rest starts with. -/
def past (cursor : Cursor) (read : List Char) : Cursor :=
  { cursor with
    rest := cursor.rest.drop read.length
    offset := cursor.offset + Text.byteLength read }

/-- Moving past characters is moving forward by the bytes that they take. -/
theorem past_eq_advance {cursor : Cursor} {read rest : List Char}
    (starts : cursor.rest = read ++ rest) :
    cursor.past read = cursor.advance (Text.byteLength read) := by
  simp [past, advance, starts, Text.dropBytes_byteLength]

/-- The next character, or the null character at the end. -/
def next (cursor : Cursor) : Char := cursor.rest.headD '\x00'

/-- Whether no character is left. -/
def atEnd (cursor : Cursor) : Bool := cursor.rest.isEmpty

/-- The position of the cursor. -/
def position (cursor : Cursor) : Position := .after cursor.offset cursor.file

/-- The span of a number of bytes from the cursor on. -/
def span (cursor : Cursor) (length : Nat) : Span :=
  .between cursor.offset (cursor.offset + length) cursor.file

end Cursor

end TypedLisp
