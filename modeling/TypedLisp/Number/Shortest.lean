import TypedLisp.Number.Decimal

/-!
# Shortest texts of numbers

A finite number is written with the fewest digits that read back as the same
number. For a power of ten, the two multiples of it around the number are the
only candidates; the greatest power of ten with a candidate that reads back
gives the fewest digits. Of two candidates that read back the nearer one is
taken, and of two equally near ones the greater.

The search goes down to the power of ten of which the number is an exact
multiple, so it always finds a text.
-/

set_option autoImplicit false

namespace TypedLisp.Number

/-- The exponent of ten at which a number with this exponent of two is an exact
decimal number. -/
def exactExponent (exponent : Int) : Int := min exponent 0

/-- The exact decimal number of a magnitude. -/
def exactDecimal (significand : Nat) (exponent : Int) : Decimal :=
  if 0 ≤ exponent then ⟨significand * Nat.pow 2 exponent.toNat, 0⟩
  else ⟨significand * Nat.pow 5 (-exponent).toNat, exponent⟩

/-- The multiple of a power of ten that stands for the magnitude, if one of the
two around it reads back. -/
def candidate? (significand : Nat) (exponent power : Int) : Option Decimal :=
  let scaled := (magnitude significand exponent).scale 10 (-power)
  let lower : Decimal := ⟨scaled.numerator / scaled.denominator, power⟩
  let upper : Decimal := ⟨scaled.numerator / scaled.denominator + 1, power⟩
  let readsBack (decimal : Decimal) : Bool :=
    decimal.toNumber false = .finite false significand exponent
  if readsBack lower &&
      (2 * (scaled.numerator % scaled.denominator) < scaled.denominator || !readsBack upper) then
    some lower
  else if readsBack upper then some upper
  else none

/-- The candidate for the greatest power of ten that has one, among the given
number of powers above the exact one. -/
def shortestBelow (significand : Nat) (exponent : Int) : Nat → Decimal
  | 0 => exactDecimal significand exponent
  | steps + 1 =>
      match candidate? significand exponent (exactExponent exponent + (steps + 1)) with
      | some decimal => decimal
      | none => shortestBelow significand exponent steps

/-- The decimal number with the fewest digits that reads back as the finite
number with the given parts. -/
def shortest (significand : Nat) (exponent : Int) : Decimal :=
  let value := magnitude significand exponent
  let wholeDigits : Int := (Nat.toDigits 10 (value.numerator / value.denominator)).length
  shortestBelow significand exponent (wholeDigits - exactExponent exponent).toNat

/-- The text of a number. -/
def render : Number → List Char
  | .nan => ['N', 'a', 'N']
  | .infinite negative => (if negative then ['-'] else []) ++ ['i', 'n', 'f']
  | .finite negative significand exponent =>
      (if negative then ['-'] else []) ++
        (if significand = 0 then ['0'] else (shortest significand exponent).render)

end TypedLisp.Number
