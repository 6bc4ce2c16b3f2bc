import TypedLisp.Proofs.Lexemes

/-!
# The table of lexeme rules

Lexemes can also be given by a table of rules, each with a pattern and with what becomes of
a text that the pattern matches. The first rule whose pattern matches is the one that
applies. A number is found by a pattern that looks at the character behind it as well, and
is then matched again by one that does not.

A pattern has candidates for what it leaves of a text (`Pattern.rests`), the preferred ones
first: of two alternatives those of the first, and of a repetition those with more rounds.
A match is the first candidate.

The table never disagrees with `lexeme?`, which looks at one character and takes the
longest run of characters of its class (`lexeme?_eq_firstLexeme?`). That is not a matter of
single rules: a word that begins with digits is left to the last rule exactly when the
number in front of it does not end where the word does (`applies_number`).
-/

set_option autoImplicit false

namespace TypedLisp

/-! ## Patterns -/

/-- The patterns of the rules: nothing, the end of the text, one character that passes a test, two
patterns one after the other, the first of two or else the second, and as many of one as there
are. -/
inductive Pattern where
  | empty
  | stop
  | one (test : Char → Bool)
  | seq (first second : Pattern)
  | either (first second : Pattern)
  | many (body : Pattern)

namespace Pattern

/-- What rounds of a step leave of a text, more rounds before fewer. Every round takes some of
the text. -/
def rounds (step : List Char → List (List Char)) (text : List Char) : List (List Char) :=
  (step text).flatMap (fun rest =>
    if rest.length < text.length then rounds step rest else []) ++ [text]
termination_by text.length

/-- What a pattern leaves of a text, in the order of preference. -/
def rests : Pattern → List Char → List (List Char)
  | empty, text => [text]
  | stop, text => if text.isEmpty then [text] else []
  | one _, [] => []
  | one test, character :: text => if test character then [text] else []
  | seq first second, text => (first.rests text).flatMap second.rests
  | either first second, text => first.rests text ++ second.rests text
  | many body, text => rounds body.rests text

/-- What the preferred match of a pattern leaves of a text. -/
def first? (pattern : Pattern) (text : List Char) : Option (List Char) :=
  (pattern.rests text).head?

/-- The characters of the preferred match of a pattern, none if there is no match. -/
def matched (pattern : Pattern) (text : List Char) : List Char :=
  match pattern.first? text with
  | some rest => text.take (text.length - rest.length)
  | none => []

/-- A character that passes a test, as often as possible but at least once. -/
def run (test : Char → Bool) : Pattern := seq (one test) (many (one test))

/-- A pattern or nothing. -/
def optional (pattern : Pattern) : Pattern := either pattern empty

variable {test : Char → Bool} {first second : Pattern} {text rest : List Char}

theorem matched_append {read : List Char} {pattern : Pattern}
    (found : pattern.first? (read ++ rest) = some rest) :
    pattern.matched (read ++ rest) = read := by
  simp [matched, found]

theorem first?_seq {middle : List Char} (front : first.first? text = some middle)
    (back : second.first? middle = some rest) : (seq first second).first? text = some rest := by
  obtain ⟨others, candidates⟩ := List.head?_eq_some_iff.1 front
  rw [first?] at back
  rw [first?, rests, candidates, List.flatMap_cons, List.head?_append, back, Option.some_or]

theorem first?_seq_one (character : Char) (text : List Char) :
    (seq (one test) second).first? (character :: text) =
      if test character then second.first? text else none := by
  rw [first?, rests, rests]
  split <;> simp [first?]

theorem mem_rests_seq : rest ∈ (seq first second).rests text ↔
    ∃ middle ∈ first.rests text, rest ∈ second.rests middle := by
  rw [rests, List.mem_flatMap]

theorem mem_rests_one : rest ∈ (one test).rests text ↔
    ∃ character, text = character :: rest ∧ test character = true := by
  cases text with
  | nil => simp [rests]
  | cons character text =>
      rw [rests]
      split
      · rename_i passes
        rw [List.mem_singleton]
        constructor
        · rintro rfl
          exact ⟨character, rfl, passes⟩
        · rintro ⟨_, same, -⟩
          exact (List.cons.inj same).2.symm
      · rename_i fails
        refine iff_of_false List.not_mem_nil ?_
        rintro ⟨_, same, passes⟩
        obtain ⟨rfl, -⟩ := List.cons.inj same
        exact fails passes

theorem mem_rests_optional {pattern : Pattern} :
    rest ∈ (optional pattern).rests text ↔ rest ∈ pattern.rests text ∨ rest = text := by
  rw [optional, rests, rests, List.mem_append, List.mem_singleton]

theorem first?_optional {pattern : Pattern} (text : List Char) :
    (optional pattern).first? text = some ((pattern.first? text).getD text) := by
  rw [first?, optional, rests, rests, List.head?_append, first?]
  cases (pattern.rests text).head? <;> rfl

theorem isSome_first? {pattern : Pattern} :
    (pattern.first? text).isSome = true ↔ ∃ rest, rest ∈ pattern.rests text := by
  rw [first?, List.isSome_head?]
  constructor
  · exact List.exists_mem_of_ne_nil _
  · rintro ⟨rest, among⟩
    exact List.ne_nil_of_mem among

/-! ### Repetitions -/

theorem rounds_of_eq_nil {step : List Char → List (List Char)} (stuck : step text = []) :
    rounds step text = [text] := by
  rw [rounds, stuck]
  rfl

theorem rounds_of_eq_singleton {step : List Char → List (List Char)} (round : step text = [rest])
    (shorter : rest.length < text.length) : rounds step text = rounds step rest ++ [text] := by
  rw [rounds, round]
  simp [shorter]

theorem first?_seq_many_of_eq_nil {body : Pattern} (stuck : body.rests text = []) :
    (seq (many body) second).first? text = second.first? text := by
  rw [first?, rests, rests, rounds_of_eq_nil stuck, List.flatMap_singleton]
  rfl

/-- Where only one round can be taken, and nothing goes on without it, it is taken. -/
theorem first?_seq_many_of_eq_singleton {body : Pattern} (round : body.rests text = [rest])
    (shorter : rest.length < text.length) (fails : second.first? text = none) :
    (seq (many body) second).first? text = (seq (many body) second).first? rest := by
  rw [first?] at fails
  rw [first?, first?, rests, rests, rests, rounds_of_eq_singleton round shorter,
    List.flatMap_append, List.flatMap_singleton, List.head?_append, fails, Option.or_none]
  rfl

theorem rests_many_one_nil : (many (one test)).rests [] = [[]] := rounds_of_eq_nil rfl

theorem rests_many_one_cons (character : Char) (text : List Char) :
    (many (one test)).rests (character :: text) =
      if test character then (many (one test)).rests text ++ [character :: text]
      else [character :: text] := by
  split
  · rename_i passes
    exact rounds_of_eq_singleton (by simp [rests, passes]) (by simp)
  · rename_i fails
    exact rounds_of_eq_nil (by simp [rests, fails])

theorem first?_many_one (text : List Char) :
    (many (one test)).first? text = some (text.dropWhile test) := by
  induction text with
  | nil => rw [first?, rests_many_one_nil, List.dropWhile_nil, List.head?_cons]
  | cons character text ih =>
      rw [first?] at ih ⊢
      rw [rests_many_one_cons, List.dropWhile_cons]
      split
      · rw [List.head?_append, ih, Option.some_or]
      · rfl

theorem mem_rests_many_one : rest ∈ (many (one test)).rests text ↔
    ∃ read, text = read ++ rest ∧ ∀ character ∈ read, test character = true := by
  induction text with
  | nil =>
      rw [rests_many_one_nil, List.mem_singleton]
      constructor
      · rintro rfl
        exact ⟨[], rfl, by simp⟩
      · rintro ⟨read, whole, -⟩
        exact (List.append_eq_nil_iff.1 whole.symm).2
  | cons character text ih =>
      rw [rests_many_one_cons]
      constructor
      · intro among
        split at among
        · rename_i passes
          rcases List.mem_append.1 among with among | among
          · obtain ⟨read, rfl, all⟩ := ih.1 among
            exact ⟨character :: read, rfl, List.forall_mem_cons.2 ⟨passes, all⟩⟩
          · exact ⟨[], (List.mem_singleton.1 among).symm, by simp⟩
        · exact ⟨[], (List.mem_singleton.1 among).symm, by simp⟩
      · rintro ⟨read, whole, all⟩
        cases read with
        | nil =>
            obtain rfl : character :: text = rest := whole
            split <;> simp
        | cons other read =>
            obtain ⟨rfl, rfl⟩ := List.cons.inj whole
            obtain ⟨passes, all⟩ := List.forall_mem_cons.1 all
            rw [if_pos passes]
            exact List.mem_append_left _ (ih.2 ⟨read, rfl, all⟩)

theorem first?_run_cons (character : Char) (text : List Char) :
    (run test).first? (character :: text) =
      if test character then some (text.dropWhile test) else none := by
  rw [run, first?_seq_one, first?_many_one]

theorem mem_rests_run : rest ∈ (run test).rests text ↔
    ∃ read, text = read ++ rest ∧ read ≠ [] ∧ ∀ character ∈ read, test character = true := by
  rw [run, mem_rests_seq]
  constructor
  · rintro ⟨middle, front, back⟩
    obtain ⟨character, rfl, passes⟩ := mem_rests_one.1 front
    obtain ⟨read, rfl, all⟩ := mem_rests_many_one.1 back
    exact ⟨character :: read, rfl, by simp, List.forall_mem_cons.2 ⟨passes, all⟩⟩
  · rintro ⟨read, rfl, nonempty, all⟩
    obtain ⟨character, others, rfl⟩ := List.exists_cons_of_ne_nil nonempty
    obtain ⟨passes, all⟩ := List.forall_mem_cons.1 all
    exact ⟨others ++ rest, mem_rests_one.2 ⟨character, rfl, passes⟩,
      mem_rests_many_one.2 ⟨others, rfl, all⟩⟩

/-! ## The patterns of the rules -/

open Text (isBlank)
open Token (Digits Numeral Literal isWordChar splitLiteral)

/-- Whether a word ends before a character. -/
def isDelimiter (character : Char) : Bool :=
  isBlank character || character == '(' || character == ')' || character == '"'

/-- Blanks, at least one. -/
def blanks : Pattern := run isBlank

/-- Two slashes and what follows them on the line. -/
def comment : Pattern :=
  seq (one (· == '/')) (seq (one (· == '/')) (many (one (· ≠ '\n'))))

/-- A character of a string literal, or an escaped one. -/
def letter : Pattern :=
  either (one fun character => character != '"' && character != '\\')
    (seq (one (· == '\\')) (one (· ≠ '\n')))

/-- A string literal between its double quotes. -/
def literal : Pattern := seq (one (· == '"')) (seq (many letter) (one (· == '"')))

/-- Decimal digits, at least one. -/
def digits : Pattern := run Char.isDigit

/-- A minus sign or nothing. -/
def sign : Pattern := optional (one (· == '-'))

/-- A point and digits, or nothing. -/
def fraction : Pattern := optional (seq (one (· == '.')) digits)

/-- A number, whatever comes next. -/
def numeral : Pattern := seq sign (seq digits fraction)

/-- A number and the delimiter behind it, or the end. -/
def number : Pattern := seq numeral (either (one isDelimiter) stop)

/-- Characters of a word, at least one. -/
def word : Pattern := run isWordChar

theorem isWordChar_eq_not_isDelimiter (character : Char) :
    isWordChar character = !isDelimiter character := rfl

theorem first?_comment (character : Char) (text : List Char) :
    comment.first? (character :: text) =
      if character = '/' ∧ text.head? = some '/' then some (text.dropWhile (· ≠ '\n'))
      else none := by
  rw [comment, first?_seq_one]
  cases text with
  | nil => simp [first?, rests]
  | cons second text =>
      rw [first?_seq_one, first?_many_one]
      by_cases slash : second = '/' <;> simp [slash]

/-! ### String literals -/

theorem rests_letter_cons {character : Char} (notQuote : character ≠ '"')
    (notBackslash : character ≠ '\\') (text : List Char) :
    letter.rests (character :: text) = [text] := by
  simp [letter, rests, notQuote, notBackslash]

theorem rests_letter_escape (escaped : Char) (text : List Char) :
    letter.rests ('\\' :: escaped :: text) = if escaped = '\n' then [] else [text] := by
  by_cases newline : escaped = '\n' <;> simp [letter, rests, newline]

/-- A literal can end in one place only: before every round of letters that is taken there
stands no double quote. -/
theorem first?_letters (text : List Char) :
    (seq (many letter) (one (· == '"'))).first? text = (splitLiteral text).map Prod.snd := by
  fun_induction splitLiteral text with
  | case1 => exact first?_seq_many_of_eq_nil rfl
  | case2 rest => exact first?_seq_many_of_eq_nil rfl
  | case3 => exact first?_seq_many_of_eq_nil rfl
  | case4 rest => exact first?_seq_many_of_eq_nil rfl
  | case5 escaped rest notNewline ih =>
      have round := rests_letter_escape escaped rest
      rw [if_neg notNewline] at round
      have shorter : rest.length < ('\\' :: escaped :: rest).length := by
        simp only [List.length_cons]
        omega
      rw [first?_seq_many_of_eq_singleton round shorter rfl, ih, Option.map_map]
      rfl
  | case6 character rest notQuote notLone notEscape ih =>
      have notBackslash : character ≠ '\\' := by
        intro backslash
        cases rest with
        | nil => exact notLone backslash rfl
        | cons letter rest => exact notEscape letter rest backslash rfl
      have notEnd : (one (· == '"')).first? (character :: rest) = none := by
        simpa [first?, rests] using notQuote
      rw [first?_seq_many_of_eq_singleton (rests_letter_cons notQuote notBackslash rest)
        (Nat.lt_succ_self _) notEnd, ih, Option.map_map]
      rfl

theorem first?_literal (character : Char) (text : List Char) :
    literal.first? (character :: text) =
      if character = '"' then (splitLiteral text).map Prod.snd else none := by
  simp only [literal, first?_seq_one, first?_letters, beq_iff_eq]

/-! ### Numbers -/

theorem mem_rests_digits {text rest : List Char} :
    rest ∈ digits.rests text ↔ ∃ read, text = read ++ rest ∧ Digits read := by
  simp only [digits, mem_rests_run, Digits, Token.isDigit_iff]

theorem mem_rests_sign {text rest : List Char} :
    rest ∈ sign.rests text ↔ ∃ read, text = read ++ rest ∧ (read = [] ∨ read = ['-']) := by
  rw [sign, mem_rests_optional, mem_rests_one]
  constructor
  · rintro (⟨minus, rfl, isMinus⟩ | rfl)
    · exact ⟨['-'], by simpa using isMinus, .inr rfl⟩
    · exact ⟨[], rfl, .inl rfl⟩
  · rintro ⟨read, rfl, rfl | rfl⟩
    · exact .inr rfl
    · exact .inl ⟨'-', rfl, rfl⟩

theorem mem_rests_fraction {text rest : List Char} :
    rest ∈ fraction.rests text ↔ ∃ read, text = read ++ rest ∧
      (read = [] ∨ ∃ decimals, read = '.' :: decimals ∧ Digits decimals) := by
  rw [fraction, mem_rests_optional, mem_rests_seq]
  constructor
  · rintro (⟨middle, front, back⟩ | rfl)
    · obtain ⟨point, rfl, isPoint⟩ := mem_rests_one.1 front
      obtain ⟨decimals, rfl, isDigits⟩ := mem_rests_digits.1 back
      exact ⟨'.' :: decimals, by simpa using isPoint, .inr ⟨decimals, rfl, isDigits⟩⟩
    · exact ⟨[], rfl, .inl rfl⟩
  · rintro ⟨read, rfl, rfl | ⟨decimals, rfl, isDigits⟩⟩
    · exact .inr rfl
    · exact .inl ⟨decimals ++ rest, mem_rests_one.2 ⟨'.', rfl, rfl⟩,
        mem_rests_digits.2 ⟨decimals, rfl, isDigits⟩⟩

theorem mem_rests_numeral {text rest : List Char} :
    rest ∈ numeral.rests text ↔ ∃ read, text = read ++ rest ∧ Numeral read := by
  rw [numeral, mem_rests_seq]
  constructor
  · rintro ⟨unsigned, front, behind⟩
    obtain ⟨point, middle, back⟩ := mem_rests_seq.1 behind
    obtain ⟨minus, rfl, isSign⟩ := mem_rests_sign.1 front
    obtain ⟨whole, rfl, isDigits⟩ := mem_rests_digits.1 middle
    obtain ⟨decimals, rfl, isFraction⟩ := mem_rests_fraction.1 back
    exact ⟨minus ++ (whole ++ decimals), by simp,
      minus, whole, decimals, rfl, isSign, isDigits, isFraction⟩
  · rintro ⟨_, rfl, minus, whole, decimals, rfl, isSign, isDigits, isFraction⟩
    refine ⟨whole ++ (decimals ++ rest), mem_rests_sign.2 ⟨minus, by simp, isSign⟩,
      mem_rests_seq.2 ⟨decimals ++ rest, mem_rests_digits.2 ⟨whole, rfl, isDigits⟩, ?_⟩⟩
    exact mem_rests_fraction.2 ⟨decimals, rfl, isFraction⟩

theorem isDigit_eq_false {character : Char} (outside : isWordChar character = false) :
    character.isDigit = false := by
  by_contra digit
  rw [Bool.not_eq_false] at digit
  rw [Token.isWordChar_of_isDigit digit] at outside
  cases outside

theorem first?_digits {read rest : List Char} (isDigits : Digits read)
    (stops : ∀ first ∈ rest.head?, first.isDigit = false) :
    digits.first? (read ++ rest) = some rest := by
  obtain ⟨character, others, rfl⟩ := List.exists_cons_of_ne_nil isDigits.1
  obtain ⟨digit, all⟩ := List.forall_mem_cons.1 isDigits.isDigit
  rw [digits, List.cons_append, first?_run_cons, if_pos digit,
    List.dropWhile_append_of_stops all stops]

theorem first?_sign {read rest : List Char} (isSign : read = [] ∨ read = ['-'])
    (stops : ∀ first ∈ rest.head?, first ≠ '-') : sign.first? (read ++ rest) = some rest := by
  rw [sign, first?_optional]
  rcases isSign with rfl | rfl
  · cases rest with
    | nil => rfl
    | cons first rest => simp [first?, rests, stops first rfl]
  · simp [first?, rests]

theorem first?_fraction {read rest : List Char}
    (isFraction : read = [] ∨ ∃ decimals, read = '.' :: decimals ∧ Digits decimals)
    (stops : ∀ first ∈ rest.head?, isWordChar first = false) :
    fraction.first? (read ++ rest) = some rest := by
  rw [fraction, first?_optional]
  rcases isFraction with rfl | ⟨decimals, rfl, isDigits⟩
  · cases rest with
    | nil => rfl
    | cons first rest =>
        have notPoint : first ≠ '.' := by
          rintro rfl
          exact absurd (stops '.' rfl) (by decide)
        simp [first?_seq_one, notPoint]
  · have found : digits.first? (decimals ++ rest) = some rest :=
      first?_digits isDigits fun first isFirst => isDigit_eq_false (stops first isFirst)
    simp [first?_seq_one, found]

/-- A number in front of a delimiter is matched to its end. -/
theorem first?_numeral {read rest : List Char} (isNumeral : Numeral read)
    (stops : ∀ first ∈ rest.head?, isWordChar first = false) :
    numeral.first? (read ++ rest) = some rest := by
  obtain ⟨minus, whole, decimals, rfl, isSign, isDigits, isFraction⟩ := isNumeral
  rw [List.append_assoc, List.append_assoc]
  refine first?_seq (first?_sign isSign ?_)
    (first?_seq (first?_digits isDigits ?_) (first?_fraction isFraction stops))
  · obtain ⟨digit, others, rfl⟩ := List.exists_cons_of_ne_nil isDigits.1
    rintro first isFirst rfl
    obtain rfl := Option.some.inj isFirst
    exact absurd (isDigits.isDigit '-' List.mem_cons_self) (by decide)
  · rcases isFraction with rfl | ⟨others, rfl, -⟩
    · exact fun first isFirst => isDigit_eq_false (stops first isFirst)
    · intro first isFirst
      obtain rfl := Option.some.inj isFirst
      decide

/-- **A number is found exactly where a whole word is one.** -/
theorem isSome_first?_number {text : List Char} :
    (number.first? text).isSome = true ↔ Numeral (text.takeWhile isWordChar) := by
  rw [isSome_first?]
  constructor
  · rintro ⟨rest, among⟩
    obtain ⟨behind, front, back⟩ := mem_rests_seq.1 among
    obtain ⟨read, rfl, isNumeral⟩ := mem_rests_numeral.1 front
    have stops : ∀ first ∈ behind.head?, isWordChar first = false := by
      intro first isFirst
      obtain ⟨others, rfl⟩ := List.head?_eq_some_iff.1 isFirst
      simp only [rests, List.isEmpty_cons, Bool.false_eq_true, if_false, List.append_nil] at back
      split at back
      · rename_i delimits
        rw [isWordChar_eq_not_isDelimiter, delimits, Bool.not_true]
      · cases back
    rwa [List.takeWhile_append_of_stops isNumeral.isWordChar stops]
  · intro isNumeral
    have front : text.dropWhile isWordChar ∈ numeral.rests text :=
      mem_rests_numeral.2 ⟨_, List.takeWhile_append_dropWhile.symm, isNumeral⟩
    have stops := @List.head?_dropWhile_eq_false _ isWordChar text
    cases behind : text.dropWhile isWordChar with
    | nil =>
        rw [behind] at front
        exact ⟨[], mem_rests_seq.2 ⟨[], front, by simp [rests]⟩⟩
    | cons first rest =>
        rw [behind] at front stops
        have delimits : isDelimiter first = true := by
          simpa [isWordChar_eq_not_isDelimiter] using stops first rfl
        exact ⟨rest, mem_rests_seq.2 ⟨first :: rest, front, by simp [rests, delimits]⟩⟩

end Pattern

/-! ## The table -/

namespace Token

open Text (isBlank)

namespace Lexeme

/-- The words that are not symbols. -/
def reserved : List (List Char × TokenKind) :=
  [("true".toList, .boolean), ("false".toList, .boolean)]

/-- What is matched, skipped. -/
def skip (pattern : Pattern) (text : List Char) : Lexeme := ⟨pattern.matched text, none⟩

/-- A token that is always written in the same way. -/
def fixed (kind : TokenKind) (value : String) (_ : Pattern) (_ : List Char) : Lexeme :=
  ⟨value.toList, some (kind, value)⟩

/-- The string between the double quotes that are matched. -/
def string (pattern : Pattern) (text : List Char) : Lexeme :=
  let quoted := pattern.matched text
  ⟨quoted, some (.string, String.ofList (unescape quoted.tail.dropLast))⟩

/-- The number in front of the delimiter that is matched with it. -/
def number (_ : Pattern) (text : List Char) : Lexeme :=
  let digits := Pattern.numeral.matched text
  ⟨digits, some (.number, String.ofList digits)⟩

/-- The symbol or reserved word that is matched. -/
def word (pattern : Pattern) (text : List Char) : Lexeme :=
  let word := pattern.matched text
  ⟨word, some ((reserved.lookup word).getD .symbol, String.ofList word)⟩

end Lexeme

/-- A pattern, and the lexeme that is made of a text that it matches. -/
structure Rule where
  pattern : Pattern
  handler : Pattern → List Char → Lexeme

/-- Whether the pattern of a rule matches a text. -/
def Rule.applies (rule : Rule) (text : List Char) : Bool := (rule.pattern.first? text).isSome

/-- The rules, in the order in which they are tried. -/
def rules : List Rule :=
  [⟨.blanks, .skip⟩, ⟨.comment, .skip⟩, ⟨.literal, .string⟩,
    ⟨.one (· == '('), .fixed .openParen "("⟩, ⟨.one (· == ')'), .fixed .closeParen ")"⟩,
    ⟨.number, .number⟩, ⟨.word, .word⟩]

/-- The lexeme that the first rule that applies to a text makes of it. -/
def firstLexeme? (text : List Char) : Option Lexeme :=
  (rules.find? (·.applies text)).map fun rule => rule.handler rule.pattern text

/-! ### What the rules make of a text -/

section Matched

open Pattern

theorem matched_run {test : Char → Bool} {character : Char} (passes : test character = true)
    (rest : List Char) :
    (run test).matched (character :: rest) = character :: rest.takeWhile test := by
  have parts : character :: rest = (character :: rest.takeWhile test) ++ rest.dropWhile test := by
    simp
  rw [parts]
  apply matched_append
  rw [← parts, first?_run_cons, if_pos passes]

theorem matched_comment (rest : List Char) :
    comment.matched ('/' :: '/' :: rest) = '/' :: '/' :: rest.takeWhile (· ≠ '\n') := by
  have parts : '/' :: '/' :: rest =
      ('/' :: '/' :: rest.takeWhile (· ≠ '\n')) ++ rest.dropWhile (· ≠ '\n') := by
    simp
  rw [parts]
  apply matched_append
  rw [← parts, first?_comment]
  simp

theorem matched_literal {rest body after : List Char}
    (split : splitLiteral rest = some (body, after)) :
    literal.matched ('"' :: rest) = '"' :: (body ++ ['"']) := by
  have parts : '"' :: rest = ('"' :: (body ++ ['"'])) ++ after := by
    simp [(literal_of_splitLiteral split).1]
  rw [parts]
  apply matched_append
  rw [← parts, first?_literal, if_pos rfl, split]
  rfl

theorem matched_numeral {text : List Char} (isNumeral : Numeral (text.takeWhile isWordChar)) :
    numeral.matched text = text.takeWhile isWordChar := by
  have found := first?_numeral isNumeral (@List.head?_dropWhile_eq_false _ isWordChar text)
  have read := matched_append found
  rwa [List.takeWhile_append_dropWhile] at read

theorem getD_lookup_reserved {word : List Char} (notNumber : isNumeral word = false) :
    (Lexeme.reserved.lookup word).getD .symbol = wordKind word := by
  rw [wordKind, notNumber]
  by_cases isTrue : word = ['t', 'r', 'u', 'e']
  · subst isTrue
    rfl
  by_cases isFalse : word = ['f', 'a', 'l', 's', 'e']
  · subst isFalse
    rfl
  have notReserved : Lexeme.reserved.lookup word = none := by
    rw [List.lookup_eq_none_iff]
    simp [Lexeme.reserved, isTrue, isFalse]
  rw [notReserved, if_neg (by simp), if_neg (by simp [isTrue, isFalse])]
  rfl

end Matched

/-! ### Which rule applies -/

theorem applies_run {test : Char → Bool} {handler : Pattern → List Char → Lexeme}
    (character : Char) (rest : List Char) :
    Rule.applies ⟨.run test, handler⟩ (character :: rest) = test character := by
  rw [Rule.applies, Pattern.first?_run_cons]
  cases test character <;> rfl

theorem applies_one {test : Char → Bool} {handler : Pattern → List Char → Lexeme}
    (character : Char) (rest : List Char) :
    Rule.applies ⟨.one test, handler⟩ (character :: rest) = test character := by
  rw [Rule.applies, Pattern.first?, Pattern.rests]
  cases test character <;> rfl

theorem applies_comment {handler : Pattern → List Char → Lexeme} (character : Char)
    (rest : List Char) : Rule.applies ⟨.comment, handler⟩ (character :: rest) =
      decide (character = '/' ∧ rest.head? = some '/') := by
  rw [Rule.applies, Pattern.first?_comment]
  split <;> simp_all

theorem applies_literal {handler : Pattern → List Char → Lexeme} (character : Char)
    (rest : List Char) : Rule.applies ⟨.literal, handler⟩ (character :: rest) =
      (decide (character = '"') && (splitLiteral rest).isSome) := by
  rw [Rule.applies, Pattern.first?_literal]
  split <;> simp_all

/-- The number rule applies exactly where a whole word is a number. -/
theorem applies_number {handler : Pattern → List Char → Lexeme} (text : List Char) :
    Rule.applies ⟨.number, handler⟩ text = isNumeral (text.takeWhile isWordChar) := by
  rw [Rule.applies, Bool.eq_iff_iff, Pattern.isSome_first?_number, isNumeral_iff]

/-- **The table and the direct definition cut the same lexeme off every text.** -/
theorem lexeme?_eq_firstLexeme? (text : List Char) : lexeme? text = firstLexeme? text := by
  cases text with
  | nil => rfl
  | cons character rest =>
      rw [lexeme?, firstLexeme?, rules]
      simp only [List.find?_cons, Pattern.blanks, Pattern.word, applies_run, applies_comment,
        applies_literal, applies_one, applies_number]
      split_ifs with white comment quote opening closing
      · simp [white, Lexeme.skip, matched_run white]
      · obtain ⟨rfl, second⟩ := comment
        obtain ⟨body, rfl⟩ := List.head?_eq_some_iff.1 second
        simp [white, Lexeme.skip, matched_comment]
      · subst quote
        have notWord : isWordChar '"' = false := by decide
        have notNumber : isNumeral [] = false := by decide
        cases split : splitLiteral rest with
        | none => simp [white, notWord, notNumber]
        | some parts => simp [white, Lexeme.string, matched_literal split]
      · subst opening
        simp [white, Lexeme.fixed]
      · subst closing
        simp [white, Lexeme.fixed]
      · have start : isWordChar character = true := by simp_all [isWordChar]
        have opens : (character == '(') = false := by simpa using opening
        have closes : (character == ')') = false := by simpa using closing
        have taken := List.takeWhile_cons_of_pos start (l := rest)
        simp only [white, comment, quote, opens, closes, start, taken, decide_false,
          Bool.false_and]
        -- what the number rule leaves over is a symbol or a reserved word
        cases number : isNumeral (character :: rest.takeWhile isWordChar) with
        | true =>
            have whole := isNumeral_iff.1 number
            rw [← taken] at whole
            simp [Lexeme.number, matched_numeral whole, taken, wordKind, number]
        | false => simp [Lexeme.word, matched_run start, getD_lookup_reserved number]

end Token

end TypedLisp
