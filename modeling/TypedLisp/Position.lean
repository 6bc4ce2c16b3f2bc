/-!
# Positions in source texts

A position is a byte offset into a named source text, and a span is a stretch
of one from its first byte to the byte after its last.

Offsets have 32 bits. Of a longer one the low bits are kept, so an offset is
exact in a text of less than `Position.limit` bytes and runs round in a longer
one.
-/

set_option autoImplicit false

namespace TypedLisp

/-- A byte offset into a named source text. -/
structure Position where
  offset : Nat
  file : String
  deriving DecidableEq, Repr

namespace Position

/-- The position of what has no place in any source text. -/
def nowhere : Position := ⟨0, "<null>"⟩

/-- The first number of bytes that is too long for an offset. -/
def limit : Nat := UInt32.size

/-- The position behind a number of bytes. -/
def after (bytes : Nat) (file : String) : Position := ⟨bytes % limit, file⟩

theorem after_of_lt {bytes : Nat} (fits : bytes < limit) (file : String) :
    after bytes file = ⟨bytes, file⟩ := by
  rw [after, Nat.mod_eq_of_lt fits]

end Position

/-- A stretch of a named source text. -/
structure Span where
  start : Nat
  stop : Nat
  file : String
  deriving DecidableEq, Repr

namespace Span

/-- The span from behind a number of bytes to behind another. -/
def between (start stop : Nat) (file : String) : Span :=
  ⟨start % Position.limit, stop % Position.limit, file⟩

theorem between_of_lt {start stop : Nat} (fitsStart : start < Position.limit)
    (fitsStop : stop < Position.limit) (file : String) :
    between start stop file = ⟨start, stop, file⟩ := by
  rw [between, Nat.mod_eq_of_lt fitsStart, Nat.mod_eq_of_lt fitsStop]

/-- Where the span starts. -/
def startPosition (span : Span) : Position := ⟨span.start, span.file⟩

/-- Where the span stops. -/
def stopPosition (span : Span) : Position := ⟨span.stop, span.file⟩

end Span

end TypedLisp
