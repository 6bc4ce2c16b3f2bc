import TypedLisp.Number.Shortest
import TypedLisp.Proofs.Lexemes
import TypedLisp.Proofs.Rounding

/-!
# The texts of numbers

A finite number that was read is written as a numeral (`numeral_render`), and that numeral
is read as the same number (`ofText?_render`). What is read is in normal form
(`normal_of_ofText?`). A decimal number that is found by the search for the shortest text
reads back, by the test that found it or because it is exact (`toNumber_shortest`), and
writing a decimal number out keeps its value (`ofText?_render_decimal`).
-/

set_option autoImplicit false

namespace TypedLisp

open Token (Digits Numeral isDigit_iff)

/-! ## Reading digits -/

theorem Token.Digits.of_isDigit {digits : List Char} (more : digits ≠ [])
    (all : ∀ digit ∈ digits, digit.isDigit = true) : Digits digits :=
  ⟨more, fun digit mem => isDigit_iff.1 (all digit mem)⟩

namespace Number

theorem splitDigits_append {digits rest : List Char} (all : ∀ digit ∈ digits, digit.isDigit = true)
    (stops : ∀ first ∈ rest.head?, first.isDigit = false) :
    splitDigits (digits ++ rest) = (digits, rest) := by
  rw [splitDigits, List.takeWhile_append_of_stops all stops,
    List.dropWhile_append_of_stops all stops]

/-- The text of a fraction, with its point. -/
def fractionText (decimals : List Char) : List Char :=
  if decimals = [] then [] else '.' :: decimals

theorem decimalOfText?_digits {whole decimals : List Char} (wholeDigits : Digits whole)
    (decimalDigits : ∀ digit ∈ decimals, digit.isDigit = true) :
    decimalOfText? (whole ++ fractionText decimals) =
      some ⟨Decimal.ofDigits (whole ++ decimals), -decimals.length⟩ := by
  have nonempty : ¬ whole ++ decimals = [] := by simp [wholeDigits.1]
  unfold fractionText
  split
  · rename_i none
    subst none
    rw [decimalOfText?, splitDigits_append wholeDigits.isDigit (by simp)]
    simp [wholeDigits.1, exponentOfText?]
  · have point : ('.').isDigit = false := by decide
    have tail : splitDigits decimals = (decimals, []) := by
      have split := @splitDigits_append decimals [] decimalDigits (by simp)
      rwa [List.append_nil] at split
    rw [decimalOfText?, splitDigits_append wholeDigits.isDigit (by simp [point])]
    simp only [tail, if_neg nonempty, exponentOfText?, Option.map_some, Int.zero_sub]

/-- The text of a sign. -/
def signText (negative : Bool) : List Char := if negative then ['-'] else []

theorem toLower_of_isDigit {digit : Char} (isDigit : digit.isDigit = true) :
    digit.toLower = digit := by
  have notUpper : ¬ ('A'.val ≤ digit.val ∧ digit.val ≤ 'Z'.val) := by
    have high := (isDigit_iff.1 isDigit).2
    intro upper
    exact absurd (UInt32.le_trans upper.1 high) (by decide)
  exact dif_neg notUpper

/-- A text that starts with a digit is none of the names of numbers. -/
theorem ofText?_of_digit (negative : Bool) {text : List Char}
    (starts : ∃ first rest, text = first :: rest ∧ first.isDigit = true) :
    ofText? (signText negative ++ text) =
      (decimalOfText? text).map (Decimal.toNumber negative) := by
  obtain ⟨first, rest, rfl, digit⟩ := starts
  have split : splitSign (signText negative ++ first :: rest) = (negative, first :: rest) := by
    cases negative with
    | true => rfl
    | false =>
        have notMinus : first ≠ '-' := by
          rintro rfl
          cases digit
        have notPlus : first ≠ '+' := by
          rintro rfl
          cases digit
        simp [signText, splitSign, notMinus, notPlus]
  have unnamed : ∀ name : String, name.toList.head?.any Char.isDigit = false →
      String.ofList ((first :: rest).map Char.toLower) ≠ name := by
    intro name letters same
    subst same
    rw [String.toList_ofList, List.map_cons, List.head?_cons, Option.any_some,
      toLower_of_isDigit digit, digit] at letters
    cases letters
  rw [ofText?, split]
  simp only [unnamed "inf" (by decide), unnamed "infinity" (by decide),
    unnamed "nan" (by decide), or_self, if_false]

/-- A numeral is read as a number. -/
theorem ofText?_of_numeral {text : List Char} (numeral : Numeral text) :
    ∃ value, ofText? text = some value := by
  obtain ⟨sign, whole, fraction, rfl, signed, digits, fractional⟩ := numeral
  obtain ⟨negative, rfl⟩ : ∃ negative, sign = signText negative := by
    rcases signed with rfl | rfl
    · exact ⟨false, rfl⟩
    · exact ⟨true, rfl⟩
  obtain ⟨decimals, rfl, decimalDigits⟩ : ∃ decimals, fraction = fractionText decimals ∧
      ∀ digit ∈ decimals, digit.isDigit = true := by
    rcases fractional with rfl | ⟨decimals, rfl, decimalDigits⟩
    · exact ⟨[], rfl, by simp⟩
    · exact ⟨decimals, (if_neg decimalDigits.1).symm, decimalDigits.isDigit⟩
  obtain ⟨first, rest, rfl⟩ := List.exists_cons_of_ne_nil digits.1
  have digit : first.isDigit = true := digits.isDigit first List.mem_cons_self
  have read := ofText?_of_digit negative ⟨first, rest ++ fractionText decimals, rfl, digit⟩
  rw [← List.cons_append, decimalOfText?_digits digits decimalDigits] at read
  exact ⟨_, read⟩

/-! ## Normal forms -/

theorem denominator_toNumber_pos (decimal : Decimal) :
    0 < (Ratio.scale ⟨decimal.digits, 1⟩ 10 decimal.exponent).denominator :=
  Ratio.denominator_scale_pos Nat.one_pos (by decide) _

/-- A finite number that is read is in normal form. -/
theorem normal_of_ofText? {text : List Char} {negative : Bool} {significand : Nat}
    {exponent : Int} (read : ofText? text = some (.finite negative significand exponent)) :
    Normal significand exponent := by
  simp only [ofText?] at read
  split_ifs at read with infinite undefined
  · cases read
  · cases read
  · obtain ⟨decimal, -, rounded⟩ := Option.map_eq_some_iff.1 read
    exact (normal_of_nearest (denominator_toNumber_pos decimal) rounded).2

theorem pack_signed {given significand : Nat} {power exponent : Int}
    (packed : pack false given power = .finite false significand exponent) (negative : Bool) :
    pack negative given power = .finite negative significand exponent := by
  unfold pack at packed ⊢
  split_ifs at packed ⊢
  cases packed
  rfl

theorem nearest_signed {value : Ratio} {significand : Nat} {exponent : Int}
    (rounded : nearest false value = .finite false significand exponent) (negative : Bool) :
    nearest negative value = .finite negative significand exponent := by
  simp only [nearest] at rounded ⊢
  split_ifs at rounded ⊢ with none full
  · cases rounded
    rfl
  · exact pack_signed rounded negative
  · exact pack_signed rounded negative

theorem toNumber_exactDecimal {significand : Nat} {exponent : Int}
    (normal : Normal significand exponent) (negative : Bool) :
    (exactDecimal significand exponent).toNumber negative =
      .finite negative significand exponent := by
  apply nearest_of_normal (denominator_toNumber_pos _) normal
  rw [Ratio.toRat_scale _ (by decide)]
  unfold exactDecimal
  split
  · rename_i nonnegative
    obtain ⟨count, rfl⟩ := Int.eq_ofNat_of_zero_le nonnegative
    simp [Ratio.toRat]
  · rename_i negative
    obtain ⟨count, same⟩ := Int.eq_ofNat_of_zero_le (by omega : 0 ≤ -exponent)
    obtain rfl : exponent = -(count : Int) := by omega
    have ten : (10 : ℚ) = 5 * 2 := by norm_num
    have five : (5 : ℚ) ^ count ≠ 0 := by positivity
    simp only [Ratio.toRat, Int.neg_neg, Int.toNat_natCast, Nat.pow_eq, Nat.cast_one, div_one]
    push_cast
    rw [ten, mul_zpow, zpow_neg, zpow_natCast, mul_assoc, mul_inv_cancel_left₀ five]

theorem toNumber_of_candidate? {significand : Nat} {exponent power : Int} {decimal : Decimal}
    (found : candidate? significand exponent power = some decimal) (negative : Bool) :
    decimal.toNumber negative = .finite negative significand exponent := by
  apply nearest_signed
  simp only [candidate?] at found
  split_ifs at found with lower upper
  · obtain rfl := Option.some.inj found
    simp only [Bool.and_eq_true, decide_eq_true_eq] at lower
    exact lower.1
  · obtain rfl := Option.some.inj found
    exact of_decide_eq_true upper

theorem toNumber_shortestBelow {significand : Nat} {exponent : Int}
    (normal : Normal significand exponent) (steps : Nat) (negative : Bool) :
    (shortestBelow significand exponent steps).toNumber negative =
      .finite negative significand exponent := by
  induction steps with
  | zero => exact toNumber_exactDecimal normal negative
  | succ steps ih =>
      unfold shortestBelow
      split
      · rename_i decimal found
        exact toNumber_of_candidate? found negative
      · exact ih

/-! ## Writing decimal numbers out -/

theorem ofDigits_toDigits (value : Nat) : Decimal.ofDigits (Nat.toDigits 10 value) = value :=
  Nat.ofDigitChars_toDigits (by decide) (by decide)

theorem Decimal.ofDigits_eq (digits : List Char) :
    Decimal.ofDigits digits = Nat.ofDigitChars 10 digits 0 := rfl

theorem ofDigits_append (front back : List Char) :
    Decimal.ofDigits (front ++ back) = Nat.ofDigitChars 10 back (Decimal.ofDigits front) :=
  Nat.ofDigitChars_append 0

/-- The digits of a natural number, with zeros in front until there are more than the
given number of them. -/
def padded (value places : Nat) : List Char :=
  List.replicate (places + 1 - (Nat.toDigits 10 value).length) '0' ++ Nat.toDigits 10 value

theorem zeros_isDigit (count : Nat) :
    ∀ digit ∈ List.replicate count '0', digit.isDigit = true := by
  intro digit mem
  rw [List.eq_of_mem_replicate mem]
  rfl

theorem padded_isDigit (value places : Nat) :
    ∀ digit ∈ padded value places, digit.isDigit = true := by
  intro digit mem
  rcases List.mem_append.1 mem with mem | mem
  · exact zeros_isDigit _ digit mem
  · exact Nat.isDigit_of_mem_toDigits (by decide) (by decide) mem

theorem lt_length_padded (value places : Nat) : places < (padded value places).length := by
  rw [padded, List.length_append, List.length_replicate]
  omega

theorem ofDigits_padded (value places : Nat) : Decimal.ofDigits (padded value places) = value := by
  have zeros (count : Nat) : Decimal.ofDigits (List.replicate count '0') = 0 := by
    rw [Decimal.ofDigits_eq, Nat.ofDigitChars_replicate_zero, Nat.mul_zero]
  rw [padded, ofDigits_append, zeros]
  exact ofDigits_toDigits value

/-- A decimal number of units without a fraction is written with zeros behind its digits. -/
theorem render_whole (value count : Nat) :
    (Decimal.mk value count).render = Nat.toDigits 10 value ++ List.replicate count '0' := by
  simp [Decimal.render]

/-- A decimal number with a fraction is written with a point before its last digits. -/
theorem render_fraction (value : Nat) {places : Nat} (more : 0 < places) :
    ∃ whole decimals, (Decimal.mk value (-places)).render = whole ++ '.' :: decimals ∧
      padded value places = whole ++ decimals ∧ whole ≠ [] ∧ decimals.length = places := by
  have negative : ¬ 0 ≤ -(places : Int) := by omega
  have long := lt_length_padded value places
  refine ⟨(padded value places).take ((padded value places).length - places),
    (padded value places).drop ((padded value places).length - places), ?_,
    (List.take_append_drop _ _).symm, ?_, ?_⟩
  · simp only [Decimal.render, if_neg negative, Int.neg_neg, Int.toNat_natCast, padded]
  · apply List.ne_nil_of_length_pos
    rw [List.length_take]
    omega
  · rw [List.length_drop]
    omega

/-- A decimal number is written out as digits with or without a fraction, and these are
read as a decimal number that is rounded to the same number. -/
theorem render_parts (decimal : Decimal) :
    ∃ whole decimals, decimal.render = whole ++ fractionText decimals ∧ Digits whole ∧
      (∀ digit ∈ decimals, digit.isDigit = true) ∧
      ∀ negative, (Decimal.mk (Decimal.ofDigits (whole ++ decimals))
        (-decimals.length)).toNumber negative = decimal.toNumber negative := by
  obtain ⟨value, exponent⟩ := decimal
  by_cases nonnegative : 0 ≤ exponent
  · obtain ⟨count, rfl⟩ := Int.eq_ofNat_of_zero_le nonnegative
    refine ⟨Nat.toDigits 10 value ++ List.replicate count '0', [], ?_,
      Digits.of_isDigit (by simp) ?_, by simp, ?_⟩
    · rw [render_whole, fractionText, if_pos rfl, List.append_nil]
    · intro digit mem
      rcases List.mem_append.1 mem with mem | mem
      · exact Nat.isDigit_of_mem_toDigits (by decide) (by decide) mem
      · exact zeros_isDigit count digit mem
    · intro negative
      rw [List.append_nil, ofDigits_append, ofDigits_toDigits, Nat.ofDigitChars_replicate_zero]
      simp [Decimal.toNumber, Ratio.scale, Nat.mul_comm]
  · obtain ⟨places, same⟩ := Int.eq_ofNat_of_zero_le (by omega : 0 ≤ -exponent)
    obtain rfl : exponent = -(places : Int) := by omega
    obtain ⟨whole, decimals, written, parts, nonempty, rfl⟩ :=
      @render_fraction value places (by omega)
    have allDigits := padded_isDigit value decimals.length
    rw [parts] at allDigits
    have some : decimals ≠ [] := by
      rintro rfl
      exact nonnegative (by simp)
    refine ⟨whole, decimals, ?_, Digits.of_isDigit nonempty ?_, ?_, ?_⟩
    · rw [written, fractionText, if_neg some]
    · intro digit mem
      exact allDigits digit (List.mem_append_left _ mem)
    · intro digit mem
      exact allDigits digit (List.mem_append_right _ mem)
    · intro negative
      rw [← parts, ofDigits_padded]

/-- A decimal number that is written out, with a sign, is a numeral. -/
theorem numeral_of_decimal (negative : Bool) (decimal : Decimal) :
    Numeral (signText negative ++ decimal.render) := by
  obtain ⟨whole, decimals, written, wholeDigits, decimalDigits, -⟩ := render_parts decimal
  refine ⟨signText negative, whole, fractionText decimals, by rw [written], ?_, wholeDigits, ?_⟩
  · cases negative <;> simp [signText]
  · unfold fractionText
    split
    · exact .inl rfl
    · rename_i some
      exact .inr ⟨decimals, rfl, Digits.of_isDigit some decimalDigits⟩

/-- A decimal number that is written out, with a sign, is read as the number nearest to
it. -/
theorem ofText?_decimal (negative : Bool) (decimal : Decimal) :
    ofText? (signText negative ++ decimal.render) = some (decimal.toNumber negative) := by
  obtain ⟨whole, decimals, written, wholeDigits, decimalDigits, same⟩ := render_parts decimal
  rw [written, ofText?_of_digit, decimalOfText?_digits wholeDigits decimalDigits,
    Option.map_some, same]
  obtain ⟨first, rest, rfl⟩ := List.exists_cons_of_ne_nil wholeDigits.1
  exact ⟨first, rest ++ fractionText decimals, rfl, wholeDigits.isDigit first (by simp)⟩

/-! ## Numbers -/

/-- A number in normal form is written as a decimal number that is rounded to it. -/
theorem render_finite {significand : Nat} {exponent : Int}
    (normal : Normal significand exponent) (negative : Bool) :
    ∃ decimal : Decimal, (finite negative significand exponent).render =
        signText negative ++ decimal.render ∧
      decimal.toNumber negative = .finite negative significand exponent := by
  by_cases vanishes : significand = 0
  · subst vanishes
    obtain rfl : exponent = leastExponent := normal.full.resolve_right (by decide)
    exact ⟨⟨0, 0⟩, rfl, rfl⟩
  · refine ⟨shortest significand exponent, ?_, toNumber_shortestBelow normal _ negative⟩
    rw [Number.render, if_neg vanishes, signText]

/-- Whether a number is finite. -/
def isFinite : Number → Bool
  | .finite _ _ _ => true
  | .infinite _ => false
  | .nan => false

/-- A finite number that was read is written as a numeral that is read as the same
number. -/
theorem ofText?_render {text : List Char} {value : Number} (read : ofText? text = some value)
    (finite : value.isFinite = true) :
    Numeral value.render ∧ ofText? value.render = some value := by
  obtain ⟨negative, significand, exponent, rfl⟩ :
      ∃ negative significand exponent, value = .finite negative significand exponent := by
    cases value with
    | finite negative significand exponent => exact ⟨negative, significand, exponent, rfl⟩
    | infinite negative => cases finite
    | nan => cases finite
  obtain ⟨decimal, written, rounded⟩ := render_finite (normal_of_ofText? read) negative
  rw [written]
  refine ⟨numeral_of_decimal negative decimal, ?_⟩
  rw [ofText?_decimal, rounded]

end Number

end TypedLisp
