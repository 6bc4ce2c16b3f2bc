import TypedLisp.Proofs.Patterns

/-!
# Lexing loses nothing

The tokens of a source text lie on it one after the other, with gaps between them
(`Laid`). A text is cut into exactly the tokens that are laid on it
(`lexFrom_of_laid`, `lexFrom_explains`), so an accepted text can be put together again from
its tokens and gaps, and no other tokens can be read from it.

`lex_lossless` says what that means for the offsets of the tokens, and where a text is
rejected. Offsets have 32 bits, so that those of the tokens are exact in a text of less than
`Position.limit` bytes. The layout of the tokens does not depend on that.
-/

set_option autoImplicit false

namespace TypedLisp

namespace Token

open Text (isBlank byteLength byteLength_append)

/-! ## Layouts -/

/-- The span of a text that comes after another. -/
def spanAfter (file : String) (before text : List Char) : Span :=
  .between (byteLength before) (byteLength (before ++ text)) file

theorem spanAfter_of_lt {before text : List Char}
    (fits : byteLength (before ++ text) < Position.limit) (file : String) :
    spanAfter file before text = ⟨byteLength before, byteLength (before ++ text), file⟩ := by
  apply Span.between_of_lt _ fits
  rw [byteLength_append] at fits
  omega

/-- `Laid file before text tokens`: after `before`, the tokens lie on `text` and end with
the end of the input. -/
inductive Laid (file : String) : List Char → List Char → List Token → Prop where
  | done {before gap : List Char} :
      Gap gap [] → Laid file before gap
        [⟨.endOfInput, "EOF", spanAfter file (before ++ gap) []⟩]
  | token {before gap text after : List Char} {kind : TokenKind} {value : String}
      {tokens : List Token} :
      Gap gap (text ++ after) → Covers (before ++ gap) text after kind value →
        Laid file (before ++ gap ++ text) after tokens →
          Laid file before (gap ++ (text ++ after))
            (⟨kind, value, spanAfter file (before ++ gap) text⟩ :: tokens)

variable {file : String}

theorem Laid.skip {before gap text : List Char} {tokens : List Token} (skipped : Gap gap text)
    (laid : Laid file (before ++ gap) text tokens) : Laid file before (gap ++ text) tokens := by
  generalize same : before ++ gap = behind at laid
  cases laid with
  | @done _ more last =>
      subst same
      rw [List.append_assoc]
      refine .done (Gap.append ?_ last)
      rwa [List.append_nil]
  | @token _ more text after kind value tokens last covers laid =>
      subst same
      rw [← List.append_assoc gap]
      simp only [List.append_assoc before gap more] at covers laid ⊢
      exact .token (Gap.append skipped last) covers laid

/-! ## Cutting a text that is laid out -/

/-- The place behind `before` in a text that goes on with `rest`. -/
def placeAfter (file : String) (before rest : List Char) : Cursor :=
  ⟨rest, byteLength before, file⟩

theorem past_placeAfter (before read after : List Char) :
    (placeAfter file before (read ++ after)).past read = placeAfter file (before ++ read) after := by
  simp [placeAfter, Cursor.past]

theorem lexFrom_skip {before read after : List Char}
    (found : lexeme? (read ++ after) = some ⟨read, none⟩) :
    lexFrom (placeAfter file before (read ++ after)) =
      lexFrom (placeAfter file (before ++ read) after) := by
  rw [lexFrom_of_lexeme?_eq_some found, past_placeAfter]
  cases lexFrom (placeAfter file (before ++ read) after) <;> rfl

theorem lexFrom_token {before read after : List Char} {kind : TokenKind} {value : String}
    (found : lexeme? (read ++ after) = some ⟨read, some (kind, value)⟩) :
    lexFrom (placeAfter file before (read ++ after)) =
      (lexFrom (placeAfter file (before ++ read) after)).map
        (⟨kind, value, spanAfter file before read⟩ :: ·) := by
  rw [lexFrom_of_lexeme?_eq_some found, past_placeAfter]
  simp [Lexeme.token?, Cursor.span, spanAfter, placeAfter]

theorem lexFrom_end (before : List Char) :
    lexFrom (placeAfter file before []) =
      .ok [⟨.endOfInput, "EOF", spanAfter file before []⟩] := by
  rw [lexFrom_of_rest_eq_nil rfl]
  simp [Cursor.span, spanAfter, placeAfter]

theorem lexFrom_blanks {first : Char} (white : isBlank first = true) (before rest : List Char) :
    lexFrom (placeAfter file before (first :: rest)) =
      lexFrom (placeAfter file (before ++ (first :: rest.takeWhile isBlank))
        (rest.dropWhile isBlank)) := by
  have parts : first :: rest = (first :: rest.takeWhile isBlank) ++ rest.dropWhile isBlank := by
    simp
  rw [parts]
  apply lexFrom_skip
  rw [← parts]
  simp [lexeme?, white]

theorem lexFrom_blank {first : Char} (white : isBlank first = true) (before rest : List Char) :
    lexFrom (placeAfter file before (first :: rest)) =
      lexFrom (placeAfter file (before ++ [first]) rest) := by
  -- from either place the whole run of blanks is skipped at once
  rw [lexFrom_blanks white]
  cases rest with
  | nil => rfl
  | cons second rest =>
      by_cases more : isBlank second = true
      · rw [lexFrom_blanks more]
        simp [more]
      · simp [more]

theorem lexFrom_comment {body after : List Char} (newlineFree : '\n' ∉ body)
    (ends : ∀ next ∈ after.head?, next = '\n') (before : List Char) :
    lexFrom (placeAfter file before ('/' :: '/' :: (body ++ after))) =
      lexFrom (placeAfter file (before ++ '/' :: '/' :: body) after) := by
  have taken : (body ++ after).takeWhile (· ≠ '\n') = body := by
    apply List.takeWhile_append_of_stops
    · intro character mem
      simpa using ne_of_mem_of_not_mem mem newlineFree
    · intro next isNext
      simpa using ends next isNext
  have slash : isBlank '/' = false := by decide
  have found : lexeme? ('/' :: '/' :: body ++ after) = some ⟨'/' :: '/' :: body, none⟩ := by
    simp only [List.cons_append, lexeme?, slash, Bool.false_eq_true, if_false, List.head?_cons,
      and_self, if_true, ne_eq, not_false_eq_true, decide_true, Char.reduceEq,
      List.takeWhile_cons_of_pos, taken]
  exact lexFrom_skip found

theorem lexFrom_gap {gap after : List Char} (skipped : Gap gap after) (before : List Char) :
    lexFrom (placeAfter file before (gap ++ after)) =
      lexFrom (placeAfter file (before ++ gap) after) := by
  induction skipped generalizing before with
  | nil => simp
  | blank white skipped ih =>
      rw [List.cons_append, lexFrom_blank white, ih, List.append_assoc]
      rfl
  | @comment body gap after newlineFree ends skipped ih =>
      rw [List.cons_append, List.cons_append, List.append_assoc,
        lexFrom_comment newlineFree ends, ih, List.append_assoc]
      rfl

/-- A text on which tokens are laid is cut into those tokens. -/
theorem lexFrom_of_laid {before text : List Char} {tokens : List Token}
    (laid : Laid file before text tokens) :
    lexFrom (placeAfter file before text) = .ok tokens := by
  induction laid with
  | @done before gap skipped =>
      have skip := @lexFrom_gap file gap [] skipped before
      rw [List.append_nil] at skip
      rw [skip, lexFrom_end]
  | token skipped covers laid ih =>
      rw [lexFrom_gap skipped, lexFrom_token (lexeme?_of_covers covers), ih]
      rfl

/-! ## Laying out a text that is cut -/

/-- After `before`, a text cannot be cut: tokens are laid on its front, and behind them
stands a double quote whose literal does not end. -/
def Rejected (file : String) (before text : List Char) (error : Error) : Prop :=
  ∃ front rest tokens, text = front ++ '"' :: rest ∧ Laid file before front tokens ∧
    ¬ ClosesLiteral rest ∧
    error = (Fault.unrecognisedToken "\"").atPosition (.after (byteLength (before ++ front)) file)

/-- What the outcome of cutting a text says about it. -/
def Explains (file : String) (before text : List Char) : Except Error (List Token) → Prop
  | .ok tokens => Laid file before text tokens
  | .error error => Rejected file before text error

theorem Breaks.after_append {text after : List Char} (breaks : Breaks text after)
    (more : text ≠ []) (before : List Char) : Breaks (before ++ text) after := by
  intro last isLast
  rw [List.getLast?_append_of_ne_nil before more] at isLast
  exact breaks last isLast

theorem Breaks.of_append {before text after : List Char} (more : text ≠ [])
    (breaks : Breaks before (text ++ after)) : Breaks before text := by
  intro last isLast first isFirst
  apply breaks last isLast
  rwa [List.head?_append_of_ne_nil text more]

theorem Laid.cons {before text after : List Char} {kind : TokenKind} {value : String}
    {tokens : List Token} (covers : Covers before text after kind value)
    (laid : Laid file (before ++ text) after tokens) :
    Laid file before (text ++ after) (⟨kind, value, spanAfter file before text⟩ :: tokens) := by
  have start : before ++ [] = before := List.append_nil before
  have step := @Laid.token file before [] text after kind value tokens .nil
  rw [start] at step
  exact step covers laid

theorem Explains.skip {before gap after : List Char} {outcome : Except Error (List Token)}
    (skipped : Gap gap after) (explains : Explains file (before ++ gap) after outcome) :
    Explains file before (gap ++ after) outcome := by
  cases outcome with
  | ok tokens => exact Laid.skip skipped explains
  | error error =>
      obtain ⟨front, rest, tokens, rfl, laid, unclosed, rfl⟩ := explains
      refine ⟨gap ++ front, rest, tokens, by simp, ?_, unclosed, by simp⟩
      exact Laid.skip skipped.truncate laid

theorem Explains.cons {before text after : List Char} {kind : TokenKind} {value : String}
    {outcome : Except Error (List Token)} (covers : Covers before text after kind value)
    (explains : Explains file (before ++ text) after outcome) :
    Explains file before (text ++ after)
      (outcome.map (⟨kind, value, spanAfter file before text⟩ :: ·)) := by
  cases outcome with
  | ok tokens => exact Laid.cons covers explains
  | error error =>
      obtain ⟨front, rest, tokens, rfl, laid, unclosed, rfl⟩ := explains
      refine ⟨text ++ front, rest, _, by simp, Laid.cons covers.truncate laid, unclosed, ?_⟩
      simp

/-- Every outcome of cutting a text is explained by what stands there. -/
theorem lexFrom_explains {before text : List Char} (breaks : Breaks before text) :
    Explains file before text (lexFrom (placeAfter file before text)) := by
  -- each step takes a nonempty lexeme off the text
  induction size : text.length using Nat.strong_induction_on generalizing before text with
  | _ bound ih =>
  by_cases more : text = []
  · subst more
    rw [lexFrom_end]
    have laid := @Laid.done file before [] .nil
    rwa [List.append_nil] at laid
  cases found : lexeme? text with
  | none =>
      obtain ⟨rest, rfl, unclosed⟩ := quote_of_lexeme?_eq_none more found
      rw [lexFrom_of_lexeme?_eq_none more found]
      refine ⟨[], rest, _, rfl, .done .nil, unclosed, ?_⟩
      rw [List.append_nil]
      rfl
  | some lexeme =>
      obtain ⟨after, rfl, reads, apart⟩ := reads_of_lexeme? found
      have nonempty := source_ne_nil_of_lexeme? found
      have shorter : after.length < bound := by
        have := List.length_pos_iff.2 nonempty
        rw [List.length_append] at size
        omega
      have rest := ih after.length shorter (apart.after_append nonempty before) rfl
      cases reads with
      | skipped skipped =>
          rw [lexFrom_skip found]
          exact rest.skip skipped
      | token covers =>
          rw [lexFrom_token found]
          exact rest.cons (covers before (breaks.of_append nonempty))

/-! ## Offsets -/

/-- A token stands on a text of the source, from one of its characters to another. -/
def Stands (source : List Char) (file : String) (token : Token) : Prop :=
  ∃ before text after, source = before ++ text ++ after ∧
    token.span = spanAfter file before text ∧
    Covers before text after token.kind token.value

/-- From one offset to another there are only blanks and comments. -/
def Separates (source : List Char) (start stop : Nat) : Prop :=
  ∃ before gap after, source = before ++ gap ++ after ∧ byteLength before = start ∧
    byteLength (before ++ gap) = stop ∧ Gap gap after

/-- The tokens of a source text account for all of it: the last one is the end of the
input, the others stand on nonempty texts of the source, one after the other, and the
stretches from the start or from the end of a token to the next one are gaps. -/
structure Lossless (source : List Char) (file : String) (tokens : List Token) : Prop where
  closed : tokens.getLast? =
    some ⟨.endOfInput, "EOF", ⟨byteLength source, byteLength source, file⟩⟩
  stand : ∀ token ∈ tokens.dropLast, Stands source file token
  nonempty : ∀ token ∈ tokens.dropLast, token.span.start < token.span.stop
  ordered : tokens.Pairwise fun earlier later => earlier.span.stop ≤ later.span.start
  separated : List.Forall₂ (Separates source)
    (0 :: tokens.dropLast.map (·.span.stop)) (tokens.map (·.span.start))

theorem byteLength_pos {text : List Char} (more : text ≠ []) : 0 < byteLength text := by
  obtain ⟨character, rest, rfl⟩ := List.exists_cons_of_ne_nil more
  have := character.utf8Size_pos
  rw [Text.byteLength_cons]
  omega

theorem Laid.ne_nil {before text : List Char} {tokens : List Token}
    (laid : Laid file before text tokens) : tokens ≠ [] := by
  cases laid <;> simp

theorem Laid.getLast? {before text : List Char} {tokens : List Token}
    (laid : Laid file before text tokens) :
    tokens.getLast? = some ⟨.endOfInput, "EOF", spanAfter file (before ++ text) []⟩ := by
  induction laid with
  | done skipped => rfl
  | token skipped covers laid ih =>
      rw [List.getLast?_cons, ih]
      simp

theorem Laid.stand {before text : List Char} {tokens : List Token}
    (laid : Laid file before text tokens) :
    ∀ token ∈ tokens.dropLast, Stands (before ++ text) file token := by
  induction laid with
  | done skipped => simp
  | @token before gap text after kind value tokens skipped covers laid ih =>
      rw [List.dropLast_cons_of_ne_nil laid.ne_nil]
      have same : before ++ gap ++ text ++ after = before ++ (gap ++ (text ++ after)) := by simp
      rw [← same]
      intro token mem
      rcases List.mem_cons.1 mem with rfl | mem
      · exact ⟨before ++ gap, text, after, rfl, rfl, covers⟩
      · exact ih token mem

theorem Stands.start_lt_stop {source : List Char} {token : Token}
    (stands : Stands source file token) (fits : byteLength source < Position.limit) :
    token.span.start < token.span.stop := by
  obtain ⟨before, text, after, rfl, same, covers⟩ := stands
  have positive := byteLength_pos covers.ne_nil
  rw [byteLength_append] at fits
  rw [same, spanAfter_of_lt (by omega), byteLength_append]
  exact Nat.lt_add_of_pos_right positive

-- the offsets of a text that is laid out run round only behind `Position.limit` bytes
section

variable {before text : List Char} {tokens : List Token}

theorem Laid.start_le (laid : Laid file before text tokens)
    (fits : byteLength (before ++ text) < Position.limit) :
    ∀ token ∈ tokens, byteLength before ≤ token.span.start := by
  induction laid with
  | @done before gap skipped =>
      intro token mem
      obtain rfl := List.mem_singleton.1 mem
      rw [spanAfter_of_lt (by simpa using fits), byteLength_append]
      exact Nat.le_add_right ..
  | @token before gap text after kind value tokens skipped covers laid ih =>
      simp only [byteLength_append] at fits ih
      intro token mem
      rcases List.mem_cons.1 mem with rfl | mem
      · rw [spanAfter_of_lt (by simp only [byteLength_append]; omega), byteLength_append]
        exact Nat.le_add_right ..
      · have later := ih (by omega) token mem
        omega

theorem Laid.ordered (laid : Laid file before text tokens)
    (fits : byteLength (before ++ text) < Position.limit) :
    tokens.Pairwise fun earlier later => earlier.span.stop ≤ later.span.start := by
  induction laid with
  | done skipped => exact List.pairwise_singleton _ _
  | @token before gap text after kind value tokens skipped covers laid ih =>
      have same : before ++ (gap ++ (text ++ after)) = before ++ gap ++ text ++ after := by simp
      rw [same] at fits
      refine List.pairwise_cons.2 ⟨?_, ih fits⟩
      rw [spanAfter_of_lt (by rw [byteLength_append] at fits; omega)]
      exact laid.start_le fits

theorem Laid.separated (laid : Laid file before text tokens)
    (fits : byteLength (before ++ text) < Position.limit) :
    List.Forall₂ (Separates (before ++ text))
      (byteLength before :: tokens.dropLast.map (·.span.stop)) (tokens.map (·.span.start)) := by
  induction laid with
  | @done before gap skipped =>
      rw [List.map_singleton, spanAfter_of_lt (by simpa using fits)]
      exact .cons ⟨before, gap, [], by simp, rfl, rfl, skipped⟩ .nil
  | @token before gap text after kind value tokens skipped covers laid ih =>
      have same : before ++ (gap ++ (text ++ after)) = before ++ gap ++ text ++ after := by simp
      rw [same] at fits ⊢
      rw [List.dropLast_cons_of_ne_nil laid.ne_nil, List.map_cons, List.map_cons,
        spanAfter_of_lt (by rw [byteLength_append] at fits; omega)]
      exact .cons ⟨before, gap, text ++ after, by simp, rfl, rfl, skipped⟩ (ih fits)

end

theorem Laid.lossless {source : List Char} {tokens : List Token}
    (laid : Laid file [] source tokens) (fits : byteLength source < Position.limit) :
    Lossless source file tokens where
  closed := by
    rw [laid.getLast?, spanAfter_of_lt (by simpa using fits)]
    simp
  stand := laid.stand
  nonempty token mem := (laid.stand token mem).start_lt_stop fits
  ordered := laid.ordered fits
  separated := laid.separated fits

theorem Laid.stands_of_mem {source : List Char} {tokens : List Token} {token : Token}
    (laid : Laid file [] source tokens) (mem : token ∈ tokens)
    (notEnd : token.kind ≠ .endOfInput) : Stands source file token := by
  obtain ⟨front, same⟩ := List.getLast?_eq_some_iff.1 laid.getLast?
  have stand := laid.stand
  rw [same] at mem stand
  rcases List.mem_append.1 mem with mem | mem
  · exact stand token (by simpa using mem)
  · obtain rfl := List.mem_singleton.1 mem
    exact absurd rfl notEnd

/-! ## Whole texts -/

theorem lex_explains (source : String) (file? : Option String) :
    Explains (file?.getD "shell") [] source.toList (lex source file?) := by
  have explains := @lexFrom_explains (file?.getD "shell") [] source.toList (by simp [Breaks])
  exact explains

theorem lex_of_laid {source : String} {file? : Option String} {tokens : List Token}
    (laid : Laid (file?.getD "shell") [] source.toList tokens) :
    lex source file? = .ok tokens :=
  lexFrom_of_laid laid

/-- The places from which a lexeme is read while a source text is cut. -/
inductive Visited (source : String) (file? : Option String) : Cursor → Prop where
  | start : Visited source file? (Cursor.ofText source file?)
  | step {cursor : Cursor} {lexeme : Lexeme} :
      Visited source file? cursor → lexeme? cursor.rest = some lexeme →
        Visited source file? (cursor.past lexeme.source)

theorem Visited.placed {source : String} {file? : Option String} {cursor : Cursor}
    (visited : Visited source file? cursor) :
    ∃ before rest, source.toList = before ++ rest ∧
      cursor = placeAfter (file?.getD "shell") before rest := by
  induction visited with
  | start => exact ⟨[], source.toList, rfl, rfl⟩
  | @step cursor lexeme visited found ih =>
      obtain ⟨before, rest, same, rfl⟩ := ih
      obtain ⟨after, split, -, -⟩ := reads_of_lexeme? found
      obtain rfl : rest = lexeme.source ++ after := split
      exact ⟨before ++ lexeme.source, after, by simp [same], past_placeAfter ..⟩

/-- **Lexing loses nothing.** While a text is cut, every place is between two characters of
the text. The lexeme there is the one that the first rule of the table makes, and the next
place is as many bytes behind it as the lexeme takes. The tokens of an accepted text are laid
on it, and in a text of less than `Position.limit` bytes their offsets account for all of it.
A text is rejected at the offset of a double quote from which no string literal runs, when all
that comes before it can be cut. -/
theorem lex_lossless (source : String) (file? : Option String) :
    (∀ cursor, Visited source file? cursor →
      (∃ before rest, source.toList = before ++ rest ∧
        cursor = placeAfter (file?.getD "shell") before rest) ∧
      lexeme? cursor.rest = firstLexeme? cursor.rest ∧
      ∀ lexeme, lexeme? cursor.rest = some lexeme →
        cursor.past lexeme.source = cursor.advance (byteLength lexeme.source)) ∧
    match lex source file? with
    | .ok tokens => Laid (file?.getD "shell") [] source.toList tokens ∧
        (byteLength source.toList < Position.limit →
          Lossless source.toList (file?.getD "shell") tokens)
    | .error error => ∃ before rest tokens, source.toList = before ++ '"' :: rest ∧
        ¬ ClosesLiteral rest ∧ lex (String.ofList before) file? = .ok tokens ∧
        error = (Fault.unrecognisedToken "\"").atPosition
          (.after (byteLength before) (file?.getD "shell")) := by
  refine ⟨fun cursor visited => ⟨visited.placed, lexeme?_eq_firstLexeme? _, ?_⟩, ?_⟩
  · intro lexeme found
    obtain ⟨after, starts, -, -⟩ := reads_of_lexeme? found
    exact Cursor.past_eq_advance starts
  have explains := lex_explains source file?
  cases outcome : lex source file? with
  | ok tokens =>
      rw [outcome] at explains
      exact ⟨explains, Laid.lossless explains⟩
  | error error =>
      rw [outcome] at explains
      obtain ⟨before, rest, tokens, same, laid, unclosed, rfl⟩ := explains
      refine ⟨before, rest, tokens, same, unclosed, ?_, rfl⟩
      apply lex_of_laid
      rwa [String.toList_ofList]

/-- A text with a letter of two bytes, a number and a comment. -/
theorem lex_lossless_commented :
    ∃ tokens, lex "(é -1.5) // ok" none = .ok tokens ∧
      Lossless "(é -1.5) // ok".toList "shell" tokens ∧
      tokens.map (fun token => (token.span.start, token.span.stop)) =
        [(0, 1), (1, 3), (4, 8), (8, 9), (15, 15)] := by
  obtain ⟨lexed, fits⟩ : lex "(é -1.5) // ok" none =
      .ok [⟨.openParen, "(", ⟨0, 1, "shell"⟩⟩, ⟨.symbol, "é", ⟨1, 3, "shell"⟩⟩,
        ⟨.number, "-1.5", ⟨4, 8, "shell"⟩⟩, ⟨.closeParen, ")", ⟨8, 9, "shell"⟩⟩,
        ⟨.endOfInput, "EOF", ⟨15, 15, "shell"⟩⟩] ∧
      byteLength "(é -1.5) // ok".toList < Position.limit := by
    decide +kernel
  have accounted := (lex_lossless "(é -1.5) // ok" none).2
  rw [lexed] at accounted
  exact ⟨_, lexed, accounted.2 fits, rfl⟩

end Token

end TypedLisp
