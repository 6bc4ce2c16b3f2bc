import TypedLisp.Number.Basic

/-!
# Decimal numbers and their texts

A decimal number is a natural number of units of a power of ten. It is written
positionally, without an exponent, and it is read to the nearest `Number`.

`Number.ofText?` reads a whole text. A text is an optional sign followed by one
of the names of the infinity and the undefined number, in either case, or by
digits with at most one point among or beside them and an optional exponent.
-/

set_option autoImplicit false

namespace TypedLisp

/-- A natural number of units of a power of ten. -/
structure Decimal where
  digits : Nat
  exponent : Int
  deriving DecidableEq, Repr

namespace Decimal

/-- The number nearest to a decimal number. -/
def toNumber (negative : Bool) (decimal : Decimal) : Number :=
  Number.nearest negative (Ratio.scale ⟨decimal.digits, 1⟩ 10 decimal.exponent)

/-- The value of a list of decimal digits. -/
def ofDigits (digits : List Char) : Nat :=
  digits.foldl (fun value digit => 10 * value + (digit.toNat - '0'.toNat)) 0

/-- The value of a written exponent. It stops growing once it is past every
number, so that no power of ten gets out of hand. -/
def exponentOfDigits (digits : List Char) : Nat :=
  digits.foldl
    (fun value digit => if value < 65536 then 10 * value + (digit.toNat - '0'.toNat) else value) 0

/-- The decimal number written positionally: all digits, and a point where the
exponent is negative. -/
def render (decimal : Decimal) : List Char :=
  let digits := Nat.toDigits 10 decimal.digits
  if 0 ≤ decimal.exponent then
    digits ++ List.replicate decimal.exponent.toNat '0'
  else
    let places := (-decimal.exponent).toNat
    let padded := List.replicate (places + 1 - digits.length) '0' ++ digits
    padded.take (padded.length - places) ++ '.' :: padded.drop (padded.length - places)

end Decimal

namespace Number

/-- Splits an optional sign from the front. -/
def splitSign : List Char → Bool × List Char
  | '-' :: rest => (true, rest)
  | '+' :: rest => (false, rest)
  | text => (false, text)

/-- Splits the decimal digits from the front. -/
def splitDigits (text : List Char) : List Char × List Char :=
  (text.takeWhile Char.isDigit, text.dropWhile Char.isDigit)

/-- Reads what may follow the digits: nothing, or an exponent with at least one
digit. -/
def exponentOfText? : List Char → Option Int
  | [] => some 0
  | mark :: text =>
      if mark = 'e' ∨ mark = 'E' then
        let (negative, unsigned) := splitSign text
        if unsigned ≠ [] ∧ unsigned.all Char.isDigit then
          let magnitude : Int := Decimal.exponentOfDigits unsigned
          some (if negative then -magnitude else magnitude)
        else none
      else none

/-- Reads digits with an optional point and an optional exponent. At least one
digit is needed. -/
def decimalOfText? (text : List Char) : Option Decimal :=
  let (whole, afterWhole) := splitDigits text
  let (fraction, rest) :=
    match afterWhole with
    | '.' :: afterPoint => splitDigits afterPoint
    | _ => ([], afterWhole)
  if whole ++ fraction = [] then none
  else (exponentOfText? rest).map fun exponent =>
    ⟨Decimal.ofDigits (whole ++ fraction), exponent - fraction.length⟩

/-- Reads a whole text as a number. -/
def ofText? (text : List Char) : Option Number :=
  let (negative, unsigned) := splitSign text
  let name := String.ofList (unsigned.map Char.toLower)
  if name = "inf" ∨ name = "infinity" then some (.infinite negative)
  else if name = "nan" then some .nan
  else (decimalOfText? unsigned).map (Decimal.toNumber negative)

end Number

end TypedLisp
