import TypedLisp.Proofs.Lists
import TypedLisp.Token.Lexer

/-!
# The grammar of lexemes

What stands at one place of a source text is described here without looking at how the
text is cut. `Literal` gives the bodies of string literals and the texts that they
denote, `Numeral` the words that are numbers, `MaximalRun` the words in their
surroundings, `Gap` what separates tokens, and `Covers` the texts that a token of a
kind and a value can stand on.

The lexeme that a text starts with is one of these (`reads_of_lexeme?`), and a text that
starts with one of these is cut after it (`lexeme?_of_covers`). A text starts with no
lexeme only if it starts with a double quote from which no literal runs
(`quote_of_lexeme?_eq_none`).
-/

set_option autoImplicit false

namespace TypedLisp

namespace Token

open Text (isBlank byteLength)

/-! ## String literals -/

/-- The letters that a backslash gives another meaning, with that meaning. -/
def escapes : List (Char × Char) := [('n', '\n'), ('t', '\t'), ('\\', '\\'), ('"', '"')]

/-- `Literal body value`: between double quotes, `body` is a string literal that denotes
`value`. A backslash before a letter that it gives no other meaning stands for itself;
it never stands before a newline. -/
inductive Literal : List Char → List Char → Prop where
  | nil : Literal [] []
  | plain {character : Char} {body value : List Char} :
      character ≠ '"' → character ≠ '\\' → Literal body value →
        Literal (character :: body) (character :: value)
  | escaped {letter character : Char} {body value : List Char} :
      (letter, character) ∈ escapes → Literal body value →
        Literal ('\\' :: letter :: body) (character :: value)
  | unescaped {letter : Char} {body value : List Char} :
      (∀ character, (letter, character) ∉ escapes) → letter ≠ '\n' → Literal body value →
        Literal ('\\' :: letter :: body) ('\\' :: letter :: value)

/-- A text goes on to the end of a string literal. -/
def ClosesLiteral (text : List Char) : Prop :=
  ∃ body value after, text = body ++ '"' :: after ∧ Literal body value

theorem not_mem_escapes_iff {letter : Char} :
    (∀ character, (letter, character) ∉ escapes) ↔
      letter ≠ 'n' ∧ letter ≠ 't' ∧ letter ≠ '\\' ∧ letter ≠ '"' := by
  constructor
  · intro plain
    refine ⟨?_, ?_, ?_, ?_⟩ <;> rintro rfl
    · exact plain '\n' (by decide)
    · exact plain '\t' (by decide)
    · exact plain '\\' (by decide)
    · exact plain '"' (by decide)
  · rintro ⟨notN, notT, notBackslash, notQuote⟩ character
    simp [escapes, notN, notT, notBackslash, notQuote]

theorem unescape_plain {character : Char} (notBackslash : character ≠ '\\')
    (rest : List Char) : unescape (character :: rest) = character :: unescape rest := by
  rw [unescape] <;> simp [notBackslash]

theorem Literal.unescape_eq {body value : List Char} (literal : Literal body value) :
    unescape body = value := by
  induction literal with
  | nil => rfl
  | plain notQuote notBackslash literal ih => rw [unescape_plain notBackslash, ih]
  | escaped known literal ih =>
      simp only [escapes, List.mem_cons, Prod.mk.injEq, List.not_mem_nil, or_false] at known
      rcases known with ⟨rfl, rfl⟩ | ⟨rfl, rfl⟩ | ⟨rfl, rfl⟩ | ⟨rfl, rfl⟩ <;>
        simp only [unescape, ih]
  | @unescaped letter body value unknown notNewline literal ih =>
      obtain ⟨notN, notT, notBackslash, notQuote⟩ := not_mem_escapes_iff.1 unknown
      rw [unescape, unescape_plain notBackslash, ih] <;> simp_all

theorem Literal.splitLiteral_eq {body value : List Char} (literal : Literal body value)
    (after : List Char) : splitLiteral (body ++ '"' :: after) = some (body, after) := by
  induction literal with
  | nil => rfl
  | plain notQuote notBackslash literal ih =>
      rw [List.cons_append, splitLiteral, ih] <;> simp_all
  | @escaped letter character body value known literal ih =>
      have notNewline : letter ≠ '\n' := by
        rintro rfl
        simp [escapes] at known
      simp [splitLiteral, notNewline, ih]
  | unescaped unknown notNewline literal ih => simp [splitLiteral, notNewline, ih]

theorem literal_of_splitLiteral {text body after : List Char}
    (split : splitLiteral text = some (body, after)) :
    text = body ++ '"' :: after ∧ ∃ value, Literal body value := by
  fun_induction splitLiteral text generalizing body after with
  | case1 => cases split
  | case2 rest =>
      obtain ⟨rfl, rfl⟩ := Prod.mk.inj (Option.some.inj split)
      exact ⟨rfl, [], .nil⟩
  | case3 => cases split
  | case4 => cases split
  | case5 letter rest notNewline ih =>
      obtain ⟨⟨inner, behind⟩, found, same⟩ := Option.map_eq_some_iff.1 split
      obtain ⟨rfl, rfl⟩ := Prod.mk.inj same
      obtain ⟨rfl, value, literal⟩ := ih found
      refine ⟨rfl, ?_⟩
      by_cases known : ∃ character, (letter, character) ∈ escapes
      · obtain ⟨character, known⟩ := known
        exact ⟨_, .escaped known literal⟩
      · exact ⟨_, .unescaped (fun character mem => known ⟨character, mem⟩) notNewline literal⟩
  | case6 character rest notQuote notLone notEscape ih =>
      have notBackslash : character ≠ '\\' := by
        intro backslash
        cases rest with
        | nil => exact notLone backslash rfl
        | cons letter rest => exact notEscape letter rest backslash rfl
      obtain ⟨⟨inner, behind⟩, found, same⟩ := Option.map_eq_some_iff.1 split
      obtain ⟨rfl, rfl⟩ := Prod.mk.inj same
      obtain ⟨rfl, value, literal⟩ := ih found
      exact ⟨rfl, _, .plain notQuote notBackslash literal⟩

theorem splitLiteral_eq_none {text : List Char} (missing : splitLiteral text = none) :
    ¬ ClosesLiteral text := by
  rintro ⟨body, value, after, rfl, literal⟩
  rw [literal.splitLiteral_eq after] at missing
  cases missing

/-! ## Words -/

/-- A nonempty text of the characters `0` to `9`. -/
def Digits (text : List Char) : Prop :=
  text ≠ [] ∧ ∀ digit ∈ text, '0' ≤ digit ∧ digit ≤ '9'

/-- A text is written as a number: digits, with or without a minus sign before them and
with or without a point and digits behind them. -/
def Numeral (text : List Char) : Prop :=
  ∃ sign whole fraction,
    text = sign ++ (whole ++ fraction) ∧ (sign = [] ∨ sign = ['-']) ∧ Digits whole ∧
      (fraction = [] ∨ ∃ decimals, fraction = '.' :: decimals ∧ Digits decimals)

/-- The text between `before` and `after` is a run of word characters that cannot be
made longer on either side. -/
structure MaximalRun (before text after : List Char) : Prop where
  nonempty : text ≠ []
  wordChars : ∀ character ∈ text, isWordChar character = true
  starts : ∀ last ∈ before.getLast?, isWordChar last = false
  stops : ∀ first ∈ after.head?, isWordChar first = false

/-- The kind of token that a word is. -/
structure WordKind (word : List Char) (kind : TokenKind) : Prop where
  among : kind = .number ∨ kind = .boolean ∨ kind = .symbol
  number : kind = .number ↔ Numeral word
  boolean : kind = .boolean ↔ word = "true".toList ∨ word = "false".toList

theorem isDigit_iff {character : Char} :
    character.isDigit = true ↔ '0' ≤ character ∧ character ≤ '9' := by
  simp [Char.isDigit, Char.le_def]

theorem isDigits_iff {text : List Char} : isDigits text = true ↔ Digits text := by
  simp [isDigits, Digits, isDigit_iff]

theorem Digits.isDigit {text : List Char} (digits : Digits text) :
    ∀ digit ∈ text, digit.isDigit = true := by
  intro digit mem
  exact isDigit_iff.2 (digits.2 digit mem)

theorem Numeral.char {text : List Char} (numeral : Numeral text) :
    ∀ character ∈ text, character = '-' ∨ character = '.' ∨ character.isDigit = true := by
  obtain ⟨sign, whole, fraction, rfl, signed, digits, fractional⟩ := numeral
  intro character mem
  rcases List.mem_append.1 mem with mem | mem
  · rcases signed with rfl | rfl
    · cases mem
    · exact .inl (List.mem_singleton.1 mem)
  rcases List.mem_append.1 mem with mem | mem
  · exact .inr (.inr (digits.isDigit character mem))
  rcases fractional with rfl | ⟨decimals, rfl, digits⟩
  · cases mem
  · rcases List.mem_cons.1 mem with rfl | mem
    · exact .inr (.inl rfl)
    · exact .inr (.inr (digits.isDigit character mem))

theorem isWordChar_of_isDigit {character : Char} (digit : character.isDigit = true) :
    isWordChar character = true := by
  obtain ⟨low, high⟩ := isDigit_iff.1 digit
  have least : 48 ≤ character.toNat := low
  have greatest : character.toNat ≤ 57 := high
  have apart {other : Char} (outside : other.toNat < 48) : character ≠ other := by
    rintro rfl
    omega
  have notBlank : isBlank character = false := by
    simp only [isBlank, Bool.or_eq_false_iff, Bool.and_eq_false_iff, decide_eq_false_iff_not,
      beq_eq_false_iff_ne]
    omega
  have notOpen : character ≠ '(' := apart (by decide)
  have notClose : character ≠ ')' := apart (by decide)
  have notQuote : character ≠ '"' := apart (by decide)
  simp [isWordChar, notBlank, notOpen, notClose, notQuote]

theorem Numeral.isWordChar {text : List Char} (numeral : Numeral text) :
    ∀ character ∈ text, isWordChar character = true := by
  intro character mem
  rcases numeral.char character mem with rfl | rfl | digit
  · decide
  · decide
  · exact isWordChar_of_isDigit digit

theorem isUnsignedNumeral_iff {text : List Char} : isUnsignedNumeral text = true ↔
    ∃ whole fraction, text = whole ++ fraction ∧ Digits whole ∧
      (fraction = [] ∨ ∃ decimals, fraction = '.' :: decimals ∧ Digits decimals) := by
  constructor
  · intro accepted
    have parts : text.takeWhile Char.isDigit ++ text.dropWhile Char.isDigit = text :=
      List.takeWhile_append_dropWhile
    unfold isUnsignedNumeral at accepted
    split at accepted
    · exact ⟨text, [], by simp, isDigits_iff.1 accepted, .inl rfl⟩
    · rename_i point decimals cut
      simp only [Bool.and_eq_true, beq_iff_eq] at accepted
      obtain ⟨⟨rfl, whole⟩, fraction⟩ := accepted
      refine ⟨_, _, parts.symm, isDigits_iff.1 whole, .inr ⟨decimals, cut, ?_⟩⟩
      exact isDigits_iff.1 fraction
  · rintro ⟨whole, fraction, rfl, digits, fractional⟩
    unfold isUnsignedNumeral
    rw [List.dropWhile_append_of_pos digits.isDigit, List.takeWhile_append_of_pos digits.isDigit]
    rcases fractional with rfl | ⟨decimals, rfl, tail⟩
    · simp [isDigits_iff.2 digits]
    · simp [Char.isDigit, isDigits_iff.2 digits, isDigits_iff.2 tail]

theorem isNumeral_iff {text : List Char} : isNumeral text = true ↔ Numeral text := by
  unfold isNumeral Numeral
  split
  · rename_i rest
    rw [isUnsignedNumeral_iff]
    constructor
    · rintro ⟨whole, fraction, rfl, digits, fractional⟩
      exact ⟨['-'], whole, fraction, rfl, .inr rfl, digits, fractional⟩
    · rintro ⟨sign, whole, fraction, same, rfl | rfl, digits, fractional⟩
      · -- a sign is no digit
        obtain ⟨first, others, rfl⟩ := List.exists_cons_of_ne_nil digits.1
        obtain ⟨rfl, -⟩ := List.cons.inj same
        exact absurd (digits.2 '-' (by simp)) (by decide)
      · exact ⟨whole, fraction, (List.cons.inj same).2, digits, fractional⟩
  · rename_i unsigned
    rw [isUnsignedNumeral_iff]
    constructor
    · rintro ⟨whole, fraction, rfl, digits, fractional⟩
      exact ⟨[], whole, fraction, rfl, .inl rfl, digits, fractional⟩
    · rintro ⟨sign, whole, fraction, same, rfl | rfl, digits, fractional⟩
      · exact ⟨whole, fraction, same, digits, fractional⟩
      · exact absurd same (unsigned _)

theorem wordKind_eq_iff {word : List Char} {kind : TokenKind} :
    wordKind word = kind ↔ WordKind word kind := by
  have isTrue : "true".toList = ['t', 'r', 'u', 'e'] := by decide
  have isFalse : "false".toList = ['f', 'a', 'l', 's', 'e'] := by decide
  constructor
  · rintro rfl
    unfold wordKind
    split_ifs with number boolean
    · refine ⟨by simp, by simp [← isNumeral_iff, number], ?_⟩
      rw [isTrue, isFalse]
      constructor
      · rintro ⟨⟩
      · rintro (rfl | rfl) <;> exact absurd number (by decide)
    · exact ⟨by simp, by simp [← isNumeral_iff, number], by simpa [isTrue, isFalse]⟩
    · exact ⟨by simp, by simp [← isNumeral_iff, number], by simpa [isTrue, isFalse] using boolean⟩
  · rintro ⟨among, number, boolean⟩
    rw [isTrue, isFalse] at boolean
    rw [← isNumeral_iff] at number
    simp only [wordKind, ← number, ← boolean]
    rcases among with rfl | rfl | rfl <;> simp

/-! ## What separates tokens -/

/-- `Gap gap after`: before `after`, the text `gap` is made of blanks and of comments
that run up to a newline or to the end. -/
inductive Gap : List Char → List Char → Prop where
  | nil {after : List Char} : Gap [] after
  | blank {character : Char} {gap after : List Char} :
      isBlank character = true → Gap gap after → Gap (character :: gap) after
  | comment {body gap after : List Char} :
      '\n' ∉ body → (∀ next ∈ (gap ++ after).head?, next = '\n') → Gap gap after →
        Gap ('/' :: '/' :: (body ++ gap)) after

theorem Gap.append {first second after : List Char} (front : Gap first (second ++ after))
    (back : Gap second after) : Gap (first ++ second) after := by
  generalize same : second ++ after = rest at front
  induction front with
  | nil => exact back
  | blank white front ih => exact .blank white (ih same)
  | @comment body gap after newlineFree ends front ih =>
      subst same
      rw [List.cons_append, List.cons_append, List.append_assoc]
      exact .comment newlineFree (by simpa using ends) (ih rfl)

theorem gap_of_blanks {blanks : List Char} (white : ∀ character ∈ blanks, isBlank character)
    (after : List Char) : Gap blanks after := by
  induction blanks with
  | nil => exact .nil
  | cons character blanks ih =>
      exact .blank (white character (by simp)) (ih fun other mem => white other (by simp [mem]))

/-- What follows a gap does not matter beyond its first character. -/
theorem Gap.truncate {gap front back : List Char} (full : Gap gap (front ++ back)) :
    Gap gap front := by
  generalize same : front ++ back = after at full
  induction full with
  | nil => exact .nil
  | blank white full ih => exact .blank white (ih same)
  | @comment body gap after newlineFree ends full ih =>
      subst same
      refine .comment newlineFree ?_ (ih rfl)
      intro next found
      apply ends
      rw [← List.append_assoc, List.head?_append, found]
      rfl

/-! ## What tokens stand on -/

/-- Between `before` and `after`, the text makes up a token of a kind and a value. -/
inductive Covers (before text after : List Char) : TokenKind → String → Prop where
  | openParen : text = ['('] → Covers before text after .openParen "("
  | closeParen : text = [')'] → Covers before text after .closeParen ")"
  | string {body value : List Char} :
      text = '"' :: (body ++ ['"']) → Literal body value →
        Covers before text after .string (String.ofList value)
  | word {kind : TokenKind} :
      MaximalRun before text after → ¬ ['/', '/'] <+: text → WordKind text kind →
        Covers before text after kind (String.ofList text)

/-- No run of word characters goes from one text on into the next. -/
def Breaks (front back : List Char) : Prop :=
  ∀ last ∈ front.getLast?, ∀ first ∈ back.head?,
    isWordChar last = false ∨ isWordChar first = false

theorem Covers.ne_nil {before text after : List Char} {kind : TokenKind} {value : String}
    (covers : Covers before text after kind value) : text ≠ [] := by
  cases covers with
  | openParen same => simp [same]
  | closeParen same => simp [same]
  | string same => simp [same]
  | word run => exact run.nonempty

theorem Covers.truncate {before text front back : List Char} {kind : TokenKind}
    {value : String} (covers : Covers before text (front ++ back) kind value) :
    Covers before text front kind value := by
  cases covers with
  | openParen same => exact .openParen same
  | closeParen same => exact .closeParen same
  | string same literal => exact .string same literal
  | word run noComment kind =>
      refine .word ⟨run.nonempty, run.wordChars, run.starts, ?_⟩ noComment kind
      intro first found
      apply run.stops
      rw [List.head?_append, found]
      rfl

/-! ## The lexeme that a text starts with -/

theorem isWordChar_eq_false_of_isBlank {character : Char} (white : isBlank character = true) :
    isWordChar character = false := by
  simp [isWordChar, white]

/-- What a lexeme is in front of a text. -/
inductive Reads (after : List Char) : Lexeme → Prop where
  | skipped {gap : List Char} : Gap gap after → Reads after ⟨gap, none⟩
  | token {text : List Char} {kind : TokenKind} {value : String} :
      (∀ before, Breaks before text → Covers before text after kind value) →
        Reads after ⟨text, some (kind, value)⟩

/-- A comment runs up to its newline. -/
theorem comment_reads (text : List Char) :
    ∃ after, '/' :: '/' :: text = ('/' :: ('/' :: text).takeWhile (· ≠ '\n')) ++ after ∧
      Reads after ⟨'/' :: ('/' :: text).takeWhile (· ≠ '\n'), none⟩ ∧
      Breaks ('/' :: ('/' :: text).takeWhile (· ≠ '\n')) after := by
  have taken : ('/' :: text).takeWhile (· ≠ '\n') = '/' :: text.takeWhile (· ≠ '\n') := by
    simp
  rw [taken]
  have newline : ∀ next ∈ (text.dropWhile (· ≠ '\n')).head?, next = '\n' := by
    intro next isNext
    simpa using List.head?_dropWhile_eq_false next isNext
  refine ⟨text.dropWhile (· ≠ '\n'), by simp, .skipped ?_, ?_⟩
  · have newlineFree : '\n' ∉ text.takeWhile (· ≠ '\n') := by
      intro mem
      simpa using List.mem_takeWhile_imp mem
    simpa using Gap.comment newlineFree newline .nil
  · intro last _ first isFirst
    rw [newline first isFirst]
    exact .inr (by decide)

theorem word_reads {character : Char} {rest : List Char} (start : isWordChar character = true)
    (noComment : ¬ (character = '/' ∧ rest.head? = some '/')) :
    Reads (rest.dropWhile isWordChar) ⟨character :: rest.takeWhile isWordChar,
      some (wordKind (character :: rest.takeWhile isWordChar),
        String.ofList (character :: rest.takeWhile isWordChar))⟩ := by
  refine .token fun before breaks => .word ⟨by simp, ?_, ?_, ?_⟩ ?_ (wordKind_eq_iff.1 rfl)
  · intro other mem
    rcases List.mem_cons.1 mem with rfl | mem
    · exact start
    · exact List.mem_takeWhile_imp mem
  · intro last found
    have apart := breaks last found character rfl
    simpa [start] using apart
  · exact List.head?_dropWhile_eq_false
  · rintro ⟨tail, same⟩
    obtain ⟨rfl, others⟩ := List.cons.inj same
    refine noComment ⟨rfl, ?_⟩
    cases rest with
    | nil => cases others
    | cons second rest =>
        by_cases word : isWordChar second
        · rw [List.takeWhile_cons_of_pos word] at others
          rw [← (List.cons.inj others).1]
          rfl
        · rw [List.takeWhile_cons_of_neg word] at others
          cases others

/-- A lexeme is taken off the front of the text, and says what stands there. -/
theorem reads_of_lexeme? {text : List Char} {lexeme : Lexeme}
    (found : lexeme? text = some lexeme) :
    ∃ after, text = lexeme.source ++ after ∧ Reads after lexeme ∧
      Breaks lexeme.source after := by
  cases text with
  | nil => cases found
  | cons character rest =>
      simp only [lexeme?] at found
      split_ifs at found with white comment quote opening closing
      · obtain rfl := Option.some.inj found
        have allBlank : ∀ other ∈ character :: rest.takeWhile isBlank, isBlank other := by
          intro other mem
          rcases List.mem_cons.1 mem with rfl | mem
          · exact white
          · exact List.mem_takeWhile_imp mem
        refine ⟨rest.dropWhile isBlank, by simp, .skipped (gap_of_blanks allBlank _), ?_⟩
        intro last isLast first _
        exact .inl (isWordChar_eq_false_of_isBlank (allBlank last (List.mem_of_getLast? isLast)))
      · obtain rfl := Option.some.inj found
        obtain ⟨rfl, second⟩ := comment
        obtain ⟨body, rfl⟩ := List.head?_eq_some_iff.1 second
        exact comment_reads body
      · obtain ⟨⟨body, after⟩, split, rfl⟩ := Option.map_eq_some_iff.1 found
        obtain ⟨rfl, value, literal⟩ := literal_of_splitLiteral split
        subst quote
        refine ⟨after, by simp, .token fun before _ => ?_, ?_⟩
        · rw [literal.unescape_eq]
          exact .string rfl literal
        · intro last isLast first _
          rw [← List.cons_append, List.getLast?_concat] at isLast
          obtain rfl := Option.some.inj isLast
          exact .inl (by decide)
      · obtain rfl := Option.some.inj found
        subst opening
        exact ⟨rest, rfl, .token fun _ _ => .openParen rfl, by simp [Breaks, isWordChar]⟩
      · obtain rfl := Option.some.inj found
        subst closing
        exact ⟨rest, rfl, .token fun _ _ => .closeParen rfl, by simp [Breaks, isWordChar]⟩
      · obtain rfl := Option.some.inj found
        have start : isWordChar character = true := by simp_all [isWordChar]
        refine ⟨rest.dropWhile isWordChar, by simp, word_reads start comment, ?_⟩
        intro last _ first isFirst
        exact .inr (List.head?_dropWhile_eq_false first isFirst)

/-- A text starts with no lexeme only at a double quote whose literal does not end. -/
theorem quote_of_lexeme?_eq_none {text : List Char} (more : text ≠ [])
    (missing : lexeme? text = none) : ∃ rest, text = '"' :: rest ∧ ¬ ClosesLiteral rest := by
  obtain ⟨character, rest, rfl⟩ := List.exists_cons_of_ne_nil more
  simp only [lexeme?] at missing
  split_ifs at missing with white comment quote opening closing
  subst quote
  exact ⟨rest, rfl, splitLiteral_eq_none (Option.map_eq_none_iff.1 missing)⟩

/-- A text that starts with what a token stands on is cut after it. -/
theorem lexeme?_of_covers {before text after : List Char} {kind : TokenKind} {value : String}
    (covers : Covers before text after kind value) :
    lexeme? (text ++ after) = some ⟨text, some (kind, value)⟩ := by
  cases covers with
  | openParen same =>
      subst same
      rfl
  | closeParen same =>
      subst same
      rfl
  | @string body value same literal =>
      subst same
      have split := literal.splitLiteral_eq after
      simp [lexeme?, isBlank, split, literal.unescape_eq]
  | word run noComment kind =>
      obtain ⟨character, others, rfl⟩ := List.exists_cons_of_ne_nil run.nonempty
      have start := run.wordChars character (by simp)
      have taken : (others ++ after).takeWhile isWordChar = others := by
        apply List.takeWhile_append_of_stops
        · intro other mem
          exact run.wordChars other (List.mem_cons_of_mem _ mem)
        · exact run.stops
      simp only [isWordChar, Bool.not_eq_true', Bool.or_eq_false_iff, beq_eq_false_iff_ne] at start
      obtain ⟨⟨⟨notBlank, notOpening⟩, notClosing⟩, notQuote⟩ := start
      have notComment : ¬ (character = '/' ∧ (others ++ after).head? = some '/') := by
        rintro ⟨rfl, second⟩
        cases others with
        | nil => exact absurd (run.stops '/' second) (by decide)
        | cons other others =>
            obtain rfl := Option.some.inj second
            exact noComment ⟨others, rfl⟩
      rw [List.cons_append, lexeme?, if_neg (by simp [notBlank]), if_neg notComment,
        if_neg notQuote, if_neg notOpening, if_neg notClosing, taken]
      simp only [wordKind_eq_iff.2 kind]

end Token

end TypedLisp
