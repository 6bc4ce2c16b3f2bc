import TypedLisp.Proofs.Lexing
import TypedLisp.Proofs.NumberText
import TypedLisp.Proofs.Reading

/-!
# Printing undoes reading

The texts of expressions that were read, joined by single spaces, are read as the same
expressions again (`readText_texts`). The numbers have to be finite and the characters of
the strings shown as they are or by an escape that string literals have.

An atom is legible when its text, wherever no word runs into it, is a token that denotes
the atom (`Legible`). The atoms of expressions that were read are legible
(`legible_of_readText`), because a token says enough about the text it stands on. From
the atoms on, a layout of tokens on the whole text is put together that spells the
expressions (`laid_render`).
-/

set_option autoImplicit false

namespace TypedLisp

open Token (Laid Covers Literal Numeral MaximalRun WordKind Stands isWordChar escapes)

namespace Expr

/-! ## Atoms -/

mutual

/-- The atoms of an expression, in order. -/
def atoms : Expr → List Expr
  | .list items => itemsAtoms items
  | .number value => [.number value]
  | .string text => [.string text]
  | .boolean value => [.boolean value]
  | .symbol name => [.symbol name]

/-- The atoms of a list of expressions, in order. -/
def itemsAtoms : List Expr → List Expr
  | [] => []
  | item :: items => atoms item ++ itemsAtoms items

end

theorem atoms_of_atom? {token : Token} {atom : Expr} (denotes : atom? token = some (.ok atom)) :
    atoms atom = [atom] := by
  unfold atom? at denotes
  split at denotes
  · split at denotes
    · obtain rfl := Except.ok.inj (Option.some.inj denotes)
      rfl
    · simp at denotes
  all_goals
    first
    | obtain rfl := Except.ok.inj (Option.some.inj denotes)
      rfl
    | cases denotes

/-- Every atom of spelled expressions is the one that a token denotes. -/
theorem Spells.atom?_of_mem {items : List Expr} {tokens : List Token}
    (spells : Spells items tokens) :
    ∀ atom ∈ itemsAtoms items, ∃ token ∈ tokens, atom? token = some (.ok atom) := by
  induction spells with
  | nil => simp [itemsAtoms]
  | @atom token tokens first items denotes spells ih =>
      intro atom mem
      rw [itemsAtoms, atoms_of_atom? denotes] at mem
      rcases List.mem_append.1 mem with mem | mem
      · obtain rfl := List.mem_singleton.1 mem
        exact ⟨token, by simp, denotes⟩
      · obtain ⟨other, among, denoted⟩ := ih atom mem
        exact ⟨other, by simp [among], denoted⟩
  | list opens inside closes spells insideIh ih =>
      intro atom mem
      rw [itemsAtoms, atoms] at mem
      rcases List.mem_append.1 mem with mem | mem
      · obtain ⟨other, among, denoted⟩ := insideIh atom mem
        exact ⟨other, by simp [among], denoted⟩
      · obtain ⟨other, among, denoted⟩ := ih atom mem
        exact ⟨other, by simp [among], denoted⟩

/-! ## Legible atoms -/

/-- Where no word runs into it, the text of an atom is a token that denotes the atom. -/
def Legible (atom : Expr) : Prop :=
  ∀ before after, (∀ last ∈ before.getLast?, isWordChar last = false) →
    (∀ first ∈ after.head?, isWordChar first = false) →
      ∃ kind value, Covers before atom.render after kind value ∧
        ∀ span, atom? ⟨kind, value, span⟩ = some (.ok atom)

/-- A character is shown as it is, or by an escape that string literals have. -/
def Readable (character : Char) : Prop :=
  Text.quoteChar character = [character] ∨
    Text.quoteChar character ∈ [['\\', 'n'], ['\\', 't'], ['\\', '"'], ['\\', '\\']]

instance (character : Char) : Decidable (Readable character) :=
  inferInstanceAs (Decidable (_ ∨ _))

theorem Readable.escaped {character : Char} (readable : Readable character) :
    Text.quoteChar character = [character] ∨
      ∃ letter, Text.quoteChar character = ['\\', letter] ∧ (letter, character) ∈ escapes := by
  refine readable.imp_right fun shown => ?_
  unfold Text.quoteChar at shown ⊢
  split_ifs at shown ⊢ with null tab carriage newline quote backslash hidden
  · simp at shown
  · exact ⟨'t', rfl, by simp [escapes, tab]⟩
  · simp at shown
  · exact ⟨'n', rfl, by simp [escapes, newline]⟩
  · exact ⟨'"', rfl, by simp [escapes, quote]⟩
  · exact ⟨'\\', rfl, by simp [escapes, backslash]⟩
  · simp [Text.codePointEscape] at shown
  · simp at shown

/-- A quoted text is a string literal that denotes it. -/
theorem literal_of_readable {text : List Char} (readable : ∀ character ∈ text, Readable character) :
    Literal (text.flatMap Text.quoteChar) text := by
  induction text with
  | nil => exact .nil
  | cons character text ih =>
      have rest := ih fun other mem => readable other (by simp [mem])
      rw [List.flatMap_cons]
      rcases (readable character (by simp)).escaped with plain | ⟨letter, escaped, known⟩
      · rw [plain]
        refine .plain ?_ ?_ rest
        · rintro rfl
          exact absurd plain (by decide)
        · rintro rfl
          exact absurd plain (by decide)
      · rw [escaped]
        exact .escaped known rest

theorem legible_string {text : String} (readable : ∀ character ∈ text.toList, Readable character) :
    Legible (.string text) := by
  intro before after _ _
  refine ⟨.string, text, ?_, fun span => rfl⟩
  have covers := @Covers.string before ('"' :: (text.toList.flatMap Text.quoteChar ++ ['"'])) after
    _ _ rfl (literal_of_readable readable)
  simpa [render, Text.quoted] using covers

/-- A word of a kind is a token of that kind. -/
theorem covers_word {word : List Char} {kind : TokenKind} (nonempty : word ≠ [])
    (wordChars : ∀ character ∈ word, isWordChar character = true)
    (noComment : ¬ ['/', '/'] <+: word) (isKind : WordKind word kind) {before after : List Char}
    (starts : ∀ last ∈ before.getLast?, isWordChar last = false)
    (stops : ∀ first ∈ after.head?, isWordChar first = false) :
    Covers before word after kind (String.ofList word) :=
  .word ⟨nonempty, wordChars, starts, stops⟩ noComment isKind

theorem legible_boolean (value : Bool) : Legible (.boolean value) := by
  intro before after starts stops
  have isKind : ∀ value, WordKind (render (.boolean value)) .boolean := by
    intro value
    rw [← Token.wordKind_eq_iff]
    revert value
    decide
  refine ⟨.boolean, _, covers_word ?_ ?_ ?_ (isKind value) starts stops, ?_⟩
  · cases value <;> decide
  · apply List.all_eq_true.1
    cases value <;> decide
  · cases value <;> decide
  · intro span
    cases value <;> rfl

theorem legible_number {value : Number} (numeral : Numeral value.render)
    (read : Number.ofText? value.render = some value) : Legible (.number value) := by
  intro before after starts stops
  have chars := numeral.char
  refine ⟨.number, String.ofList value.render, covers_word ?_ ?_ ?_ ?_ starts stops, ?_⟩
  · obtain ⟨sign, whole, fraction, same, -, digits, -⟩ := numeral
    rw [render, same]
    simp [digits.1]
  · exact numeral.isWordChar
  · rintro ⟨rest, same⟩
    have slash := chars '/' (by rw [render] at same; simp [← same])
    revert slash
    decide
  · rw [← Token.wordKind_eq_iff, Token.wordKind, render, if_pos (Token.isNumeral_iff.2 numeral)]
  · intro span
    simp [atom?, read]

/-! ## What was read -/

/-- A symbol that was read is legible: its token stood on the same text. -/
theorem legible_symbol {source : List Char} {file : String} {token : Token}
    (stands : Stands source file token) (isSymbol : token.kind = .symbol) :
    Legible (.symbol token.value) := by
  obtain ⟨_, text, _, -, -, covers⟩ := stands
  intro before after starts stops
  refine ⟨.symbol, token.value, ?_, fun span => rfl⟩
  rw [isSymbol] at covers
  generalize token.value = name at covers
  cases covers with
  | word run noComment isKind =>
      rw [render, String.toList_ofList]
      exact covers_word run.nonempty run.wordChars noComment isKind starts stops

/-- The atoms of expressions that were read are legible. -/
theorem legible_of_readText {source : String} {file? : Option String} {items : List Expr}
    (read : readText source file? = .ok items)
    (isFinite : ∀ value, .number value ∈ itemsAtoms items → value.isFinite = true)
    (readable : ∀ text, .string text ∈ itemsAtoms items → ∀ character ∈ text.toList,
      Readable character) :
    ∀ atom ∈ itemsAtoms items, Legible atom := by
  intro atom mem
  obtain ⟨tokens, cut, all⟩ : ∃ tokens, Token.lex source file? = .ok tokens ∧
      readAll tokens = .ok items := by
    cases cut : Token.lex source file? with
    | error error =>
        rw [readText, cut] at read
        cases read
    | ok tokens =>
        rw [readText, cut] at read
        exact ⟨tokens, rfl, read⟩
  have laid := Token.lex_explains source file?
  rw [cut] at laid
  obtain ⟨used, rest, rfl, -, spells⟩ := spells_of_readAllFrom all
  obtain ⟨token, among, denotes⟩ := spells.atom?_of_mem atom mem
  have stands : Stands source.toList (file?.getD "shell") token := by
    apply Laid.stands_of_mem laid (List.mem_append_left _ among)
    intro ends
    simp [atom?, ends] at denotes
  unfold atom? at denotes
  split at denotes
  · split at denotes
    · rename_i value number
      obtain rfl := Except.ok.inj (Option.some.inj denotes)
      obtain ⟨numeral, again⟩ := Number.ofText?_render number (isFinite value mem)
      exact legible_number numeral again
    · simp at denotes
  · obtain rfl := Except.ok.inj (Option.some.inj denotes)
    exact legible_string (readable token.value mem)
  · obtain rfl := Except.ok.inj (Option.some.inj denotes)
    exact legible_boolean _
  · rename_i isSymbol
    obtain rfl := Except.ok.inj (Option.some.inj denotes)
    exact legible_symbol stands isSymbol
  · cases denotes
  · cases denotes
  · cases denotes

/-! ## Layouts of texts -/

theorem laid_atom {file : String} {atom : Expr} (legible : Legible atom)
    {before after : List Char} {tokens : List Token}
    (starts : ∀ last ∈ before.getLast?, isWordChar last = false)
    (stops : ∀ first ∈ after.head?, isWordChar first = false)
    (laid : Laid file (before ++ atom.render) after tokens) :
    ∃ front, Spells [atom] front ∧ Laid file before (atom.render ++ after) (front ++ tokens) := by
  obtain ⟨kind, value, covers, denotes⟩ := legible before after starts stops
  exact ⟨[⟨kind, value, _⟩], .atom (denotes _) .nil, laid.cons covers⟩

mutual

/-- On the text of an expression, tokens are laid that spell it. -/
theorem laid_render {file : String} : (expression : Expr) →
    (∀ atom ∈ atoms expression, Legible atom) → ∀ {before after : List Char} {tokens : List Token},
      (∀ last ∈ before.getLast?, isWordChar last = false) →
      (∀ first ∈ after.head?, isWordChar first = false) →
      Laid file (before ++ expression.render) after tokens →
        ∃ front, Spells [expression] front ∧
          Laid file before (expression.render ++ after) (front ++ tokens)
  | .number _, legible, _, _, _, starts, stops, laid =>
      laid_atom (legible _ (by simp [atoms])) starts stops laid
  | .string _, legible, _, _, _, starts, stops, laid =>
      laid_atom (legible _ (by simp [atoms])) starts stops laid
  | .boolean _, legible, _, _, _, starts, stops, laid =>
      laid_atom (legible _ (by simp [atoms])) starts stops laid
  | .symbol _, legible, _, _, _, starts, stops, laid =>
      laid_atom (legible _ (by simp [atoms])) starts stops laid
  | .list items, legible, before, after, tokens, starts, stops, laid => by
      obtain ⟨closing, closes, closed⟩ : ∃ closing : Token, closing.kind = .closeParen ∧
          Laid file (before ++ ['('] ++ renderItems items) ([')'] ++ after) (closing :: tokens) :=
        ⟨_, rfl, Laid.cons (.closeParen rfl) (by simpa [render] using laid)⟩
      obtain ⟨inner, spells, inside⟩ := laid_renderItems items (by simpa [atoms] using legible)
        (by simp [isWordChar]) (by simp [isWordChar]) closed
      obtain ⟨opening, opens, opened⟩ : ∃ opening : Token, opening.kind = .openParen ∧
          Laid file before (['('] ++ (renderItems items ++ ([')'] ++ after)))
            (opening :: (inner ++ closing :: tokens)) :=
        ⟨_, rfl, inside.cons (.openParen rfl)⟩
      refine ⟨opening :: (inner ++ [closing]), .list opens spells closes .nil, ?_⟩
      simpa [render] using opened

/-- On the texts of expressions with single spaces between them, tokens are laid that
spell them. -/
theorem laid_renderItems {file : String} : (items : List Expr) →
    (∀ atom ∈ itemsAtoms items, Legible atom) → ∀ {before after : List Char} {tokens : List Token},
      (∀ last ∈ before.getLast?, isWordChar last = false) →
      (∀ first ∈ after.head?, isWordChar first = false) →
      Laid file (before ++ renderItems items) after tokens →
        ∃ front, Spells items front ∧
          Laid file before (renderItems items ++ after) (front ++ tokens)
  | [], _, _, _, _, _, _, laid => ⟨[], .nil, by simpa [renderItems] using laid⟩
  | [item], legible, _, _, _, starts, stops, laid =>
      laid_render item (by simpa [itemsAtoms] using legible) starts stops laid
  | item :: next :: items, legible, before, after, tokens, starts, stops, laid => by
      rw [itemsAtoms] at legible
      have behind : Laid file (before ++ item.render ++ [' '] ++ renderItems (next :: items)) after
          tokens := by simpa [renderItems] using laid
      obtain ⟨back, spellsBack, laidBack⟩ := laid_renderItems (next :: items)
        (fun atom mem => legible atom (List.mem_append_right _ mem))
        (by simp [isWordChar, Text.isBlank]) stops behind
      have spaced : Laid file (before ++ item.render)
          ([' '] ++ (renderItems (next :: items) ++ after)) (back ++ tokens) :=
        laidBack.skip (.blank (by decide) .nil)
      obtain ⟨front, spellsFront, laidFront⟩ := laid_render item
        (fun atom mem => legible atom (List.mem_append_left _ mem)) starts
        (by simp [isWordChar, Text.isBlank]) spaced
      refine ⟨front ++ back, spellsFront.append spellsBack, ?_⟩
      simpa [renderItems] using laidFront

end

/-! ## Printing undoes reading -/

theorem intercalate_eq_renderItems (items : List Expr) :
    (String.intercalate " " (items.map text)).toList = renderItems items := by
  rw [String.toList_intercalate, List.map_map]
  have texts : String.toList ∘ text = render := by
    funext item
    exact String.toList_ofList
  rw [texts]
  induction items with
  | nil => rfl
  | cons item items ih =>
      cases items with
      | nil => simp [renderItems]
      | cons next items =>
          rw [renderItems, ← ih]
          simp [List.intercalate_cons_cons]

/-- Printing undoes reading: the texts of expressions that were read, joined by single
spaces, are read as the same expressions. -/
theorem readText_texts {source : String} {file? : Option String} {items : List Expr}
    (read : readText source file? = .ok items)
    (isFinite : ∀ value, .number value ∈ itemsAtoms items → value.isFinite = true)
    (readable : ∀ text, .string text ∈ itemsAtoms items → ∀ character ∈ text.toList,
      Readable character)
    (other? : Option String) :
    readText (String.intercalate " " (items.map text)) other? = .ok items := by
  have legible := legible_of_readText read isFinite readable
  have done := @Laid.done (other?.getD "shell") ([] ++ renderItems items) [] .nil
  obtain ⟨front, spells, laid⟩ := laid_renderItems items legible (by simp) (by simp) done
  rw [List.append_nil, ← intercalate_eq_renderItems] at laid
  rw [readText, Token.lex_of_laid laid]
  exact readAllFrom_of_spells spells rfl

/-- A symbol with slashes, escapes in a string and a number that is not written in its
shortest form, with a comment behind them. -/
theorem readText_texts_escapes :
    ∃ items, (readText "(f//x \"a\\\"b\\n\" -1.50)// c" none).toOption = some items ∧
      String.intercalate " " (items.map text) = "(f//x \"a\\\"b\\n\" -1.5)" ∧
      readText "(f//x \"a\\\"b\\n\" -1.5)" none = .ok items := by
  have read : (readText "(f//x \"a\\\"b\\n\" -1.50)// c" none).toOption =
      some [.list [.symbol "f//x", .string "a\"b\n",
        .number (.finite true 6755399441055744 (-52))]] := by decide +kernel
  refine ⟨_, read, by decide +kernel, readText_texts (readText_of_toOption read) ?_ ?_ none⟩
  · simp [itemsAtoms, atoms, Number.isFinite]
  · have shown : ("a\"b\n".toList.all fun character => decide (Readable character)) = true := by
      decide +kernel
    have readable : ∀ character ∈ "a\"b\n".toList, Readable character := by
      intro character among
      exact of_decide_eq_true (List.all_eq_true.1 shown character among)
    simpa [itemsAtoms, atoms] using readable

end Expr

end TypedLisp
