/-!
# Lengths in bytes

Offsets into a source text count bytes of its UTF-8 form. This module measures
a list of characters in that unit.
-/

set_option autoImplicit false

namespace TypedLisp.Text

/-- The number of bytes that a list of characters takes in UTF-8. -/
def byteLength : List Char → Nat
  | [] => 0
  | character :: rest => character.utf8Size + byteLength rest

@[simp] theorem byteLength_nil : byteLength [] = 0 := rfl

@[simp] theorem byteLength_cons (character : Char) (rest : List Char) :
    byteLength (character :: rest) = character.utf8Size + byteLength rest := rfl

@[simp] theorem byteLength_append (front back : List Char) :
    byteLength (front ++ back) = byteLength front + byteLength back := by
  induction front with
  | nil => simp
  | cons character rest ih => simp [ih, Nat.add_assoc]

/-- Drops whole characters until the given number of bytes is gone. -/
def dropBytes : Nat → List Char → List Char
  | _, [] => []
  | 0, text => text
  | count, character :: rest => dropBytes (count - character.utf8Size) rest

theorem dropBytes_byteLength (front back : List Char) :
    dropBytes (byteLength front) (front ++ back) = back := by
  induction front with
  | nil => cases back <;> rfl
  | cons character rest ih =>
      have positive : 0 < character.utf8Size := character.utf8Size_pos
      obtain ⟨count, same⟩ : ∃ count, byteLength (character :: rest) = count + 1 :=
        ⟨byteLength (character :: rest) - 1, by simp; omega⟩
      rw [same, List.cons_append, dropBytes, ← same]
      · simpa using ih
      · omega

end TypedLisp.Text
