/-!
# Numbers

The numbers of the language are the binary floating-point numbers of 64 bits.
They are kept as exact data: a finite number is a sign, a natural significand
and a power of two, and the two infinities and the undefined number stand
apart. The language only reads and prints numbers, so no arithmetic on them is
defined.

`Number.nearest` rounds an exact quotient of naturals to the nearest number, a
quotient half-way between two numbers to the one with the even significand.
What it returns is in normal form: the exponent is the least one, or the
significand has its full width.
-/

set_option autoImplicit false

namespace TypedLisp

/-- A binary floating-point number. The finite number with significand `m` and
exponent `e` has the magnitude `m * 2 ^ e`. -/
inductive Number where
  | nan
  | infinite (negative : Bool)
  | finite (negative : Bool) (significand : Nat) (exponent : Int)
  deriving DecidableEq, Repr

/-- The quotient of two naturals rounded to the nearest natural, a half to the
even one. -/
def roundHalfEven (numerator denominator : Nat) : Nat :=
  let quotient := numerator / denominator
  let remainder := numerator % denominator
  if 2 * remainder < denominator then quotient
  else if denominator < 2 * remainder then quotient + 1
  else if quotient % 2 = 0 then quotient else quotient + 1

/-- A ratio of naturals, kept unreduced. -/
structure Ratio where
  numerator : Nat
  denominator : Nat
  deriving DecidableEq, Repr

namespace Ratio

/-- The product with an integer power of a base. -/
def scale (value : Ratio) (base : Nat) (exponent : Int) : Ratio :=
  if 0 ≤ exponent then ⟨value.numerator * Nat.pow base exponent.toNat, value.denominator⟩
  else ⟨value.numerator, value.denominator * Nat.pow base (-exponent).toNat⟩

/-- The greatest `k` with `2 ^ k` at most the value, for a positive value. -/
def binaryOrder (value : Ratio) : Int :=
  let guess : Int := value.numerator.log2 - value.denominator.log2
  let scaled := value.scale 2 (-guess)
  if scaled.denominator ≤ scaled.numerator then guess else guess - 1

end Ratio

namespace Number

/-- The width of a full significand in bits. -/
def significandWidth : Nat := 53

/-- The exponent of the least positive number. -/
def leastExponent : Int := -1074

/-- The exponent of the greatest finite number. -/
def greatestExponent : Int := 971

/-- The zero of a sign. -/
def zero (negative : Bool) : Number := .finite negative 0 leastExponent

/-- The finite number with the given parts, or the infinity when the exponent
is too great. -/
def pack (negative : Bool) (significand : Nat) (exponent : Int) : Number :=
  if greatestExponent < exponent then .infinite negative
  else .finite negative significand exponent

/-- The number nearest to a quotient, of two equally near ones the one with the
even significand. -/
def nearest (negative : Bool) (value : Ratio) : Number :=
  if value.numerator = 0 then zero negative
  else
    let exponent := max (value.binaryOrder - (significandWidth - 1)) leastExponent
    let scaled := value.scale 2 (-exponent)
    let significand := roundHalfEven scaled.numerator scaled.denominator
    if significand = Nat.pow 2 significandWidth then
      pack negative (Nat.pow 2 (significandWidth - 1)) (exponent + 1)
    else pack negative significand exponent

/-- The exact magnitude of a finite number with the given parts. -/
def magnitude (significand : Nat) (exponent : Int) : Ratio :=
  Ratio.scale ⟨significand, 1⟩ 2 exponent

end Number

end TypedLisp
