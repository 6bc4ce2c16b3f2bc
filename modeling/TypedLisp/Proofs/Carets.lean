import TypedLisp.Proofs.Parentheses
import TypedLisp.Proofs.SourceLines

/-!
# The caret of a report

A text that cannot be read is reported at the character that reading does not get past: the
first closing parenthesis without a match, or a double quote whose literal does not end
(`Expr.Offends`). The report prints the line of that character without its indentation and
the blanks at its end, and a caret in the line below.

The two printed lines start alike, so that the columns of both are counted from the same
place. The offending character stands behind as many characters as come before it in the
printed line (`Report.getElem?_shownLine`), but the caret stands behind as many dashes as
these characters take bytes (`Report.getElem?_pointerLine`). So the caret points at the
offending character exactly when each of them takes a single byte, and to the right of it
otherwise.
-/

set_option autoImplicit false

namespace TypedLisp

/-! ## Bytes and characters -/

namespace Text

theorem length_le_byteLength (text : List Char) : text.length ≤ byteLength text := by
  induction text with
  | nil => exact Nat.le_refl 0
  | cons character text ih =>
      have size := character.utf8Size_pos
      rw [List.length_cons, byteLength_cons]
      omega

theorem byteLength_eq_length_iff {text : List Char} :
    byteLength text = text.length ↔ ∀ character ∈ text, character.utf8Size = 1 := by
  induction text with
  | nil => simp
  | cons character text ih =>
      have size := character.utf8Size_pos
      have more := length_le_byteLength text
      rw [List.forall_mem_cons, ← ih, byteLength_cons, List.length_cons]
      omega

end Text

/-! ## The offending character -/

namespace Expr

open Text (byteLength byteLength_append)
open Token (Matched AllMatched ClosesLiteral)

/-- `Offends source file? before character after`: between `before` and `after`, the source
text cannot be read past the character. It is the first closing parenthesis without a match,
or a double quote whose literal does not end, when what comes before it can be cut into
tokens. -/
inductive Offends (source : String) (file? : Option String) (before : List Char) :
    Char → List Char → Prop where
  | closing {after : List Char} {front rest : List Token} {closing : Token} :
      source.toList = before ++ ')' :: after →
        Token.lex source file? = .ok (front ++ closing :: rest) → closing.kind = .closeParen →
          closing.span.start = byteLength before → AllMatched front → ¬ Matched front →
            Offends source file? before ')' after
  | quote {after : List Char} {tokens : List Token} :
      source.toList = before ++ '"' :: after →
        Token.lex (String.ofList before) file? = .ok tokens → ¬ ClosesLiteral after →
          Offends source file? before '"' after

variable {source : String} {file? : Option String} {error : Error} {position : Position}

theorem Offends.whole {before after : List Char} {character : Char}
    (offends : Offends source file? before character after) :
    source.toList = before ++ character :: after := by
  cases offends with
  | closing whole => exact whole
  | quote whole => exact whole

theorem Offends.not_isBlank {before after : List Char} {character : Char}
    (offends : Offends source file? before character after) : Text.isBlank character = false := by
  cases offends with
  | closing => decide
  | quote => decide

/-- Reading the tokens of a text fails at a closing parenthesis without a match, or behind the
last token. -/
theorem stop_of_readAll {tokens : List Token} (lexed : Token.lex source file? = .ok tokens)
    (read : readAll tokens = .error error) :
    (∃ front closing rest, tokens = front ++ closing :: rest ∧ closing.kind = .closeParen ∧
      AllMatched front ∧ ¬ Matched front ∧ error = unexpected closing) ∨
    error = unexpectedEnd (.after (byteLength source.toList) (file?.getD "shell")) := by
  obtain ⟨front, rfl, placed⟩ := Token.written_of_lex lexed
  have written : ∀ token ∈ front, token.Written := fun token among => (placed token among).1
  have stops := stops_of_readAllFrom (numeric_of_written written (by rfl)) read
  have unbalanced := stops.unbalanced rfl fun token among => (written token among).notEnd
  rcases unbalanced.2 with closing | ⟨-, ending⟩
  · exact .inl closing
  · rw [endPosition, List.getLast?_concat] at ending
    exact .inr ending

/-- A closing parenthesis among the tokens stands on one of the text. -/
theorem parenthesis_of_lex {tokens : List Token} {closing : Token}
    (lexed : Token.lex source file? = .ok tokens) (among : closing ∈ tokens)
    (closes : closing.kind = .closeParen) (fits : byteLength source.toList < Position.limit) :
    ∃ before after, source.toList = before ++ ')' :: after ∧
      closing.span.start = byteLength before := by
  have laid := Token.lex_explains source file?
  rw [lexed] at laid
  obtain ⟨before, text, after, whole, span, covers⟩ :=
    Token.Laid.stands_of_mem laid among (by simp [closes])
  rw [closes] at covers
  have isParenthesis : text = [')'] := by
    generalize closing.value = value at covers
    cases covers with
    | closeParen same => exact same
    | word _ _ kind => simpa using kind.among
  rw [whole, byteLength_append] at fits
  rw [isParenthesis, List.append_assoc] at whole
  refine ⟨before, after, whole, ?_⟩
  rw [span, Token.spanAfter_of_lt (by omega)]

/-- **A reading error inside the text stands at an offending character.** -/
theorem offends_of_readProgram (failed : readProgram source file? = .error error)
    (placed : error.context = .position position)
    (inside : position.offset < byteLength source.toList)
    (fits : byteLength source.toList < Position.limit) :
    ∃ before character after, Offends source file? before character after ∧
      byteLength before = position.offset := by
  have read : readText source file? = .error error := by
    unfold readProgram at failed
    cases outcome : readText source file? with
    | ok items =>
        rw [outcome] at failed
        cases failed
    | error other =>
        rw [outcome] at failed
        exact congrArg _ (Except.error.inj failed)
  unfold readText at read
  cases lexed : Token.lex source file? with
  | error other =>
      rw [lexed] at read
      obtain rfl := Except.error.inj read
      have rejected := Token.lex_explains source file?
      rw [lexed] at rejected
      obtain ⟨before, after, tokens, whole, laid, unclosed, rfl⟩ := rejected
      obtain rfl := Context.position.inj placed
      have earlier : Token.lex (String.ofList before) file? = .ok tokens := by
        apply Token.lex_of_laid
        rwa [String.toList_ofList]
      refine ⟨before, '"', after, .quote whole earlier unclosed, ?_⟩
      rw [whole, byteLength_append] at fits
      rw [List.nil_append, Position.after_of_lt (by omega)]
  | ok tokens =>
      rw [lexed] at read
      rcases stop_of_readAll lexed read with
        ⟨front, closing, rest, rfl, closes, earlier, unmatched, rfl⟩ | rfl
      · obtain rfl := Context.position.inj placed
        obtain ⟨before, after, whole, starts⟩ := parenthesis_of_lex lexed (by simp) closes fits
        exact ⟨before, ')', after, .closing whole lexed closes starts earlier unmatched,
          starts.symm⟩
      · obtain rfl := Context.position.inj placed
        rw [Position.after_of_lt fits] at inside
        exact absurd inside (Nat.lt_irrefl _)

end Expr

/-! ## The printed lines -/

namespace Report

open Text (byteLength byteLength_append isBlank trimEnd)

/-- The start of a printed line that shows no source. -/
def bar (number : Nat) : String :=
  String.ofList (rightAligned (number.repr.length + 2) ' ' '|')

/-- The printed line that shows a line of the source behind its number. -/
def shownLine (number : Nat) (line : List Char) : String :=
  number.repr ++ " | " ++ String.ofList (trimEnd (line.dropWhile isIndent))

/-- The printed line with the caret behind a number of dashes. -/
def pointerLine (number dashes : Nat) : String :=
  bar number ++ " " ++ String.ofList (rightAligned (dashes + 1) '-' '^')

/-- The widest field that is looked at here. Whether a wider one can be printed is left open. -/
def widestField : Nat := 65535

/-- The column of a character of the source in the printed line, behind the number of the line
and the characters before it that are not indentation. -/
def columnBehind (number : Nat) (before : List Char) : Nat :=
  number.repr.length + 3 + (before.dropWhile isIndent).length

theorem trimEnd_append_cons {character : Char} (visible : isBlank character = false)
    (front back : List Char) :
    trimEnd (front ++ character :: back) = front ++ character :: trimEnd back := by
  have reversed : (front ++ character :: back).reverse =
      back.reverse ++ character :: front.reverse := by
    simp
  rw [trimEnd, reversed, List.dropWhile_append_cons_of_neg visible, trimEnd]
  simp

theorem isIndent_eq_false {character : Char} (visible : isBlank character = false) :
    isIndent character = false := by
  by_contra indents
  simp only [isIndent, Bool.not_eq_false, Bool.or_eq_true, beq_iff_eq] at indents
  rcases indents with rfl | rfl <;> revert visible <;> decide

variable {number : Nat} {before after : List Char} {character : Char}

/-- There are as many dashes as the characters before a visible one take bytes, without the
indentation. -/
theorem dashes_eq (visible : isBlank character = false) :
    Located.dashes ⟨number, before ++ character :: after, byteLength before⟩ =
      byteLength (before.dropWhile isIndent) := by
  have taken := List.takeWhile_append_cons_of_neg (isIndent_eq_false visible) before after
  have parts : byteLength before =
      byteLength (before.takeWhile isIndent) + byteLength (before.dropWhile isIndent) := by
    rw [← byteLength_append, List.takeWhile_append_dropWhile]
  rw [Located.dashes, taken]
  dsimp only
  omega

/-- The excerpt at a visible character shows its line, and the dashes before the caret. -/
theorem excerpt_eq (visible : isBlank character = false) :
    excerpt ⟨number, before ++ character :: after, byteLength before⟩ =
      [bar number, shownLine number (before ++ character :: after),
        pointerLine number (byteLength (before.dropWhile isIndent))] := by
  rw [excerpt, dashes_eq visible]
  rfl

/-- The printed line shows a visible character of the source at its column. -/
theorem getElem?_shownLine (visible : isBlank character = false) :
    (shownLine number (before ++ character :: after)).toList[columnBehind number before]? =
      some character := by
  have shown : (shownLine number (before ++ character :: after)).toList =
      (number.repr.toList ++ [' ', '|', ' '] ++ before.dropWhile isIndent) ++
        character :: trimEnd after := by
    rw [shownLine, List.dropWhile_append_cons_of_neg (isIndent_eq_false visible),
      trimEnd_append_cons visible]
    simp
  have column : columnBehind number before =
      (number.repr.toList ++ [' ', '|', ' '] ++ before.dropWhile isIndent).length := by
    rw [columnBehind, List.length_append, List.length_append, String.length_toList]
    rfl
  rw [shown, column, List.getElem?_append_right (Nat.le_refl _), Nat.sub_self]
  rfl

/-- The caret stands behind the dashes. -/
theorem getElem?_pointerLine {dashes column : Nat} :
    (pointerLine number dashes).toList[column]? = some '^' ↔
      column = number.repr.length + 3 + dashes := by
  have printed : (pointerLine number dashes).toList =
      (List.replicate (number.repr.length + 1) ' ' ++ ['|', ' '] ++ List.replicate dashes '-') ++
        ['^'] := by
    simp [pointerLine, bar, rightAligned]
  have fresh : '^' ∉ List.replicate (number.repr.length + 1) ' ' ++ ['|', ' '] ++
      List.replicate dashes '-' := by
    simp [List.mem_replicate]
  rw [printed, List.getElem?_concat_eq_some_iff fresh]
  simp only [List.length_append, List.length_replicate, List.length_cons, List.length_nil]

/-! ## The caret -/

/-- **The caret points at the offending character exactly behind single bytes.** When a text of
less than `Position.limit` bytes cannot be read and the error stands inside it, the report shows
the line of the offending character behind its number, without the indentation and the blanks
at its end. There is one caret below, and it stands in the column of the offending character if
and only if every character before that one in the printed line takes one byte. The field of
the caret is to be no wider than `widestField`. -/
theorem caret_below_offender_iff {source file : String} {file? : Option String} {error : Error}
    {position : Position} (failed : Expr.readProgram source file? = .error error)
    (placed : error.context = .position position)
    (inside : position.offset < byteLength source.toList)
    (fits : byteLength source.toList < Position.limit)
    (narrow : ∀ located ∈ locate source position.offset, located.dashes < widestField) :
    ∃ (above before : List Char) (offending : Char) (after below : List Char) (number : Nat)
        (pointer : String),
      Expr.Offends source file? (above ++ before) offending (after ++ below) ∧
      LineAt source.toList position.offset
        ⟨number, before ++ offending :: after, byteLength before⟩ above below ∧
      render error source file = [heading error.fault, "-> " ++ file, bar number,
        shownLine number (before ++ offending :: after), pointer] ∧
      (shownLine number (before ++ offending :: after)).toList[columnBehind number before]? =
        some offending ∧
      (∀ column : Nat, pointer.toList[column]? = some '^' ↔
        column = number.repr.length + 3 + byteLength (before.dropWhile isIndent)) ∧
      byteLength (before.dropWhile isIndent) < widestField ∧
      (pointer.toList[columnBehind number before]? = some '^' ↔
        ∀ character ∈ before.dropWhile isIndent, character.utf8Size = 1) := by
  obtain ⟨front, offending, back, offends, atOffset⟩ :=
    Expr.offends_of_readProgram failed placed inside fits
  obtain ⟨located, found⟩ := exists_locate_iff.2 inside
  obtain ⟨above, below, lineAt⟩ := locate_eq_some_iff.1 found
  obtain ⟨before, after, rfl, rfl, line, offset⟩ := lineAt.split offends.whole atOffset
  have visible := offends.not_isBlank
  obtain ⟨number, _, _⟩ := located
  dsimp only at line offset
  subst line offset
  have dashes := narrow _ found
  rw [dashes_eq visible] at dashes
  refine ⟨above, before, offending, after, below, number,
    pointerLine number (byteLength (before.dropWhile isIndent)), offends, lineAt, ?_,
    getElem?_shownLine visible, fun column => getElem?_pointerLine, dashes, ?_⟩
  · rw [render, placed, place, found]
    exact congrArg (heading error.fault :: ("-> " ++ file) :: ·) (excerpt_eq visible)
  · rw [getElem?_pointerLine, columnBehind, ← Text.byteLength_eq_length_iff]
    omega

/-- The tenth line of the text is indented, and closes a list too many. The parenthesis and the
caret below it stand in column 12. -/
theorem caret_below_offender_indented :
    ∃ error, Expr.readProgram "\n\n\n\n\n\n\n\n\n\t (b \"c\")) x" none = .error error ∧
      error.context = .position ⟨18, "shell"⟩ ∧
      render error "\n\n\n\n\n\n\n\n\n\t (b \"c\")) x" "main.lisp" =
        [heading error.fault, "-> main.lisp", "   |", "10 | (b \"c\")) x", "   | -------^"] ∧
      "10 | (b \"c\")) x".toList[12]? = some ')' ∧
      ∀ column : Nat, "   | -------^".toList[column]? = some '^' ↔ column = 12 := by
  obtain ⟨failed, located, single, inside, fits, narrow, whole⟩ :
      Expr.readProgram "\n\n\n\n\n\n\n\n\n\t (b \"c\")) x" none =
        .error ((Fault.unexpectedToken ")").atPosition ⟨18, "shell"⟩) ∧
      locate "\n\n\n\n\n\n\n\n\n\t (b \"c\")) x" 18 =
        some ⟨10, "\t (b \"c\")) x".toList, 9⟩ ∧
      ("\t (b \"c\")) x".toList.all (·.utf8Size == 1)) = true ∧
      18 < byteLength "\n\n\n\n\n\n\n\n\n\t (b \"c\")) x".toList ∧
      byteLength "\n\n\n\n\n\n\n\n\n\t (b \"c\")) x".toList < Position.limit ∧
      Located.dashes ⟨10, "\t (b \"c\")) x".toList, 9⟩ < widestField ∧
      render ((Fault.unexpectedToken ")").atPosition ⟨18, "shell"⟩)
        "\n\n\n\n\n\n\n\n\n\t (b \"c\")) x" "main.lisp" = [heading (.unexpectedToken ")"),
          "-> main.lisp", "   |", "10 | (b \"c\")) x", "   | -------^"] := by
    decide +kernel
  obtain ⟨above, before, offending, after, below, number, pointer, -, lineAt, printed, shown,
      caret, -, -⟩ :=
    @caret_below_offender_iff _ "main.lisp" _ _ _ failed rfl inside fits fun place found =>
      Option.some.inj (located.symm.trans found) ▸ narrow
  obtain ⟨rfl, line, offset⟩ := Located.mk.inj
    (Option.some.inj ((locate_eq_some_iff.2 ⟨above, below, lineAt⟩).symm.trans located))
  have length : before.length = 9 := by
    rw [← offset, Text.byteLength_eq_length_iff.2]
    intro character among
    exact eq_of_beq (List.all_eq_true.1 single character (line ▸ List.mem_append_left _ among))
  have start : before = "\t (b \"c\")".toList := by
    have front := congrArg (List.take before.length) line
    rw [List.take_left, length] at front
    exact front
  obtain rfl := start
  obtain ⟨rfl, -⟩ : offending = ')' ∧ after = [' ', 'x'] := by simpa using line
  have same := printed.symm.trans whole
  simp only [List.cons.injEq, and_true] at same
  obtain ⟨-, -, -, shownSame, rfl⟩ := same
  rw [shownSame] at shown
  exact ⟨_, failed, rfl, whole, shown, caret⟩

/-- Behind a letter of two bytes, the caret misses the second closing parenthesis by one
column. -/
theorem caret_beyond_offender :
    ∃ error, Expr.readProgram "(\"é\"))" (some "main.lisp") = .error error ∧
      error.context = .position ⟨6, "main.lisp"⟩ ∧
      render error "(\"é\"))" "main.lisp" =
        [heading error.fault, "-> main.lisp", bar 1, shownLine 1 "(\"é\"))".toList,
          "  | ------^"] ∧
      (shownLine 1 "(\"é\"))".toList).toList[columnBehind 1 "(\"é\")".toList]? = some ')' ∧
      "  | ------^".toList[columnBehind 1 "(\"é\")".toList]? ≠ some '^' := by
  have failed : Expr.readProgram "(\"é\"))" (some "main.lisp") =
      .error ((Fault.unexpectedToken ")").atPosition ⟨6, "main.lisp"⟩) := by
    decide +kernel
  exact ⟨_, failed, rfl, by decide +kernel⟩

end Report

end TypedLisp
