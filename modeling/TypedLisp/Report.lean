import TypedLisp.Error
import TypedLisp.Text.Blank
import TypedLisp.Text.Utf8

/-!
# Reports

An error is reported against the source text it arose in. The report names the
fault, gives its tip and the file, and then shows the offending expression, or
the line that the position falls into with a caret below it.

`locate` finds the line of a byte offset. The caret is moved to the right by the
number of bytes between the first shown character and the position.
-/

set_option autoImplicit false

namespace TypedLisp.Report

open Text (byteLength isBlank trimEnd)

/-! ## Lines -/

/-- The lines of a text, each with its newline. -/
def lines : List Char → List (List Char)
  | [] => []
  | character :: rest =>
      if character = '\n' then [character] :: lines rest
      else
        match lines rest with
        | [] => [[character]]
        | line :: later => (character :: line) :: later

/-- A line of a text: its number, counted from one, its characters, and the
offset in bytes of a place in it. -/
structure Located where
  number : Nat
  line : List Char
  offset : Nat
  deriving DecidableEq, Repr

/-- The line among the given ones, of which the first has the given number, that
the offset falls into. -/
def locateIn : Nat → List (List Char) → Nat → Option Located
  | _, [], _ => none
  | number, line :: later, offset =>
      if offset < byteLength line then some ⟨number, line, offset⟩
      else locateIn (number + 1) later (offset - byteLength line)

/-- The line of a text that a byte offset falls into. -/
def locate (text : String) (offset : Nat) : Option Located :=
  locateIn 1 (lines text.toList) offset

/-! ## Reports -/

/-- Whether a character is indentation. -/
def isIndent (character : Char) : Bool := character == ' ' || character == '\t'

/-- The number of bytes between the first character of a line that is not
indentation and the place in it. -/
def Located.dashes (located : Located) : Nat :=
  located.offset - byteLength (located.line.takeWhile isIndent)

/-- A character at the right end of a field of the given width. -/
def rightAligned (width : Nat) (fill character : Char) : List Char :=
  List.replicate (width - 1) fill ++ [character]

/-- The line that shows which fault it is, with its tip. -/
def heading (fault : Fault) : String :=
  match fault.tip? with
  | none => "Error: " ++ fault.name
  | some tip => "Error: " ++ fault.name ++ " (" ++ tip ++ ")"

/-- The three lines that show a line of the source and a caret below a place in
it. Indentation and the blanks at the end are left out. -/
def excerpt (located : Located) : List String :=
  let number := located.number.repr
  let bar := String.ofList (rightAligned (number.length + 2) ' ' '|')
  let shown := located.line.dropWhile isIndent
  let caret := String.ofList (rightAligned (located.dashes + 1) '-' '^')
  [bar, number ++ " | " ++ String.ofList (trimEnd shown), bar ++ " " ++ caret]

/-- The lines that show where an error arose. -/
def place (source : String) : Context → List String
  | .expression expression => ["   | " ++ expression.text]
  | .position position =>
      match locate source position.offset with
      | some located => excerpt located
      | none => ["   | at end of input"]

/-- The lines of the report of an error in a source text that is called by the
given name. -/
def render (error : Error) (source file : String) : List String :=
  heading error.fault :: ("-> " ++ file) :: place source error.context

end TypedLisp.Report
