import TypedLisp.Proofs.Lexing
import TypedLisp.Proofs.NumberText
import TypedLisp.Proofs.Reading

/-!
# Balanced parentheses

The tokens of a source text are read as expressions exactly when their parentheses are
balanced: no front part of them closes more lists than it opens, and all of them close as
many as they open (`Token.Balanced`). Nothing is lost then, since the expressions flatten
to the tokens again. Otherwise the error is that of the first closing parenthesis without
a match, or of the end of the text when every closing parenthesis has one
(`Expr.readAll_balanced`).

Counting and matching are tied together by `Token.Nested.matched`: where more lists have
been opened than closed, the next closing parenthesis has a match. The counts follow the
reader through the lists that are open (`Expr.Pending`), so that the place where it stops
is known by what has been counted before it.
-/

set_option autoImplicit false

namespace TypedLisp

namespace Token

/-! ## Counting parentheses -/

/-- How many of the tokens open a list. -/
def openings (tokens : List Token) : Nat := tokens.countP (·.kind = .openParen)

/-- How many of the tokens close a list. -/
def closings (tokens : List Token) : Nat := tokens.countP (·.kind = .closeParen)

/-- No front part of the tokens closes more lists than it opens. -/
def Nested (tokens : List Token) : Prop :=
  ∀ count, closings (tokens.take count) ≤ openings (tokens.take count)

/-- No front part of the tokens closes more lists than it opens, and all of them close as
many as they open. -/
structure Balanced (tokens : List Token) : Prop where
  nested : Nested tokens
  totals : closings tokens = openings tokens

/-- A closing parenthesis behind the tokens has a match among them: an opening one after
which everything is balanced. -/
def Matched (before : List Token) : Prop :=
  ∃ outer opening inner, before = outer ++ opening :: inner ∧ opening.kind = .openParen ∧
    Balanced inner

/-- Every closing parenthesis among the tokens has a match. -/
def AllMatched (tokens : List Token) : Prop :=
  ∀ before closing after, tokens = before ++ closing :: after → closing.kind = .closeParen →
    Matched before

variable {token opening closing : Token} {tokens front back : List Token}

@[simp] theorem openings_nil : openings [] = 0 := rfl

@[simp] theorem closings_nil : closings [] = 0 := rfl

@[simp] theorem openings_append (front back : List Token) :
    openings (front ++ back) = openings front + openings back :=
  List.countP_append

@[simp] theorem closings_append (front back : List Token) :
    closings (front ++ back) = closings front + closings back :=
  List.countP_append

theorem openings_cons (token : Token) (tokens : List Token) :
    openings (token :: tokens) =
      openings tokens + if token.kind = .openParen then 1 else 0 := by
  simp [openings, List.countP_cons]

theorem closings_cons (token : Token) (tokens : List Token) :
    closings (token :: tokens) =
      closings tokens + if token.kind = .closeParen then 1 else 0 := by
  simp [closings, List.countP_cons]

theorem Nested.le (nested : Nested tokens) : closings tokens ≤ openings tokens := by
  have whole := nested tokens.length
  rwa [List.take_length] at whole

theorem Nested.append (first : Nested front) (second : Nested back) : Nested (front ++ back) := by
  intro count
  rw [List.take_append, closings_append, openings_append]
  exact Nat.add_le_add (first count) (second _)

/-- A front part of nested tokens is nested. -/
theorem Nested.of_append (nested : Nested (front ++ back)) : Nested front := by
  intro count
  have part := nested (min count front.length)
  rwa [List.take_append_of_le_length (Nat.min_le_right _ _), ← List.take_eq_take_min] at part

theorem balanced_nil : Balanced [] := by
  refine ⟨?_, rfl⟩
  intro count
  rw [List.take_nil]
  exact Nat.le_refl _

/-- A token that is no parenthesis. -/
theorem balanced_atom (notOpen : token.kind ≠ .openParen) (notClose : token.kind ≠ .closeParen) :
    Balanced [token] := by
  refine ⟨?_, by simp [openings_cons, closings_cons, notOpen, notClose]⟩
  intro count
  cases count with
  | zero => exact Nat.le_refl _
  | succ count => simp [openings_cons, closings_cons, notOpen, notClose]

theorem Balanced.append (first : Balanced front) (second : Balanced back) :
    Balanced (front ++ back) := by
  refine ⟨first.nested.append second.nested, ?_⟩
  rw [closings_append, openings_append, first.totals, second.totals]

/-- An opening parenthesis makes up for one closing parenthesis more. -/
theorem nested_cons_open (opens : opening.kind = .openParen)
    (almost : ∀ count, closings (tokens.take count) ≤ openings (tokens.take count) + 1) :
    Nested (opening :: tokens) := by
  have notClose : opening.kind ≠ .closeParen := by simp [opens]
  intro count
  cases count with
  | zero => exact Nat.le_refl _
  | succ count =>
      rw [List.take_succ_cons, closings_cons, openings_cons, if_pos opens, if_neg notClose]
      exact almost count

theorem Nested.cons_open (nested : Nested tokens) (opens : opening.kind = .openParen) :
    Nested (opening :: tokens) :=
  nested_cons_open opens fun count => Nat.le_succ_of_le (nested count)

/-- What is balanced is so between parentheses. -/
theorem Balanced.enclosed (balanced : Balanced tokens) (opens : opening.kind = .openParen)
    (closes : closing.kind = .closeParen) : Balanced (opening :: (tokens ++ [closing])) := by
  refine ⟨nested_cons_open opens ?_, ?_⟩
  · intro count
    have inside := balanced.nested count
    have last : closings ([closing].take (count - tokens.length)) ≤ 1 :=
      List.countP_le_length.trans (List.length_take_le' _ _)
    rw [List.take_append, closings_append, openings_append]
    omega
  · have totals := balanced.totals
    simp [openings_cons, closings_cons, opens, closes, totals]

/-! ## Matches -/

/-- Where more lists have been opened than closed, a closing parenthesis has a match. By
induction on the number of tokens: a closing parenthesis at their end has a match of its
own, and the search goes on in front of that. -/
theorem Nested.matched (nested : Nested tokens) (more : closings tokens < openings tokens) :
    Matched tokens := by
  induction size : tokens.length using Nat.strong_induction_on generalizing tokens with
  | _ bound ih =>
  rcases tokens.eq_nil_or_concat with rfl | ⟨front, last, rfl⟩
  · simp at more
  rw [List.concat_eq_append] at nested more size ⊢
  simp only [openings_append, closings_append, openings_cons, closings_cons, openings_nil,
    closings_nil, Nat.zero_add] at more
  simp only [List.length_append, List.length_singleton] at size
  by_cases opens : last.kind = .openParen
  · exact ⟨front, last, [], rfl, opens, balanced_nil⟩
  rw [if_neg opens] at more
  have moreFront : closings front < openings front := by omega
  obtain ⟨outer, opening, inner, rfl, isOpen, balanced⟩ := ih front.length (by omega)
    nested.of_append moreFront rfl
  by_cases closes : last.kind = .closeParen
  · have totals := balanced.totals
    simp only [openings_append, closings_append, openings_cons, closings_cons, if_pos closes,
      if_pos isOpen, totals] at more
    obtain ⟨around, another, between, rfl, isOpenToo, balancedToo⟩ := ih outer.length
      (by simp only [List.length_append, List.length_cons] at size; omega)
      nested.of_append.of_append (by omega) rfl
    refine ⟨around, another, between ++ opening :: (inner ++ [last]), by simp, isOpenToo, ?_⟩
    exact balancedToo.append (balanced.enclosed isOpen closes)
  · refine ⟨outer, opening, inner ++ [last], by simp, isOpen, ?_⟩
    exact balanced.append (balanced_atom opens closes)

theorem Matched.lt (matched : Matched tokens) (nested : Nested tokens) :
    closings tokens < openings tokens := by
  obtain ⟨outer, opening, inner, rfl, isOpen, balanced⟩ := matched
  have outside := nested.of_append.le
  have totals := balanced.totals
  have notClose : opening.kind ≠ .closeParen := by simp [isOpen]
  simp only [openings_append, closings_append, openings_cons, closings_cons, if_pos isOpen,
    if_neg notClose, totals]
  omega

/-- In nested tokens every closing parenthesis has a match. -/
theorem Nested.allMatched (nested : Nested tokens) : AllMatched tokens := by
  rintro before closing after rfl closes
  rw [List.append_cons] at nested
  have counted := nested.of_append.le
  have fewer : closings before < openings before := by
    simp [openings_cons, closings_cons, closes] at counted
    omega
  exact nested.of_append.of_append.matched fewer

/-- Behind balanced tokens a closing parenthesis has no match. -/
theorem Balanced.not_matched (balanced : Balanced tokens) : ¬ Matched tokens := by
  intro matched
  have counted := matched.lt balanced.nested
  rw [balanced.totals] at counted
  exact Nat.lt_irrefl _ counted

/-- A closing parenthesis behind balanced tokens spoils all that follows. -/
theorem Balanced.not_nested (balanced : Balanced front) (closes : closing.kind = .closeParen) :
    ¬ Nested (front ++ closing :: back) := by
  intro nested
  rw [List.append_cons] at nested
  have counted := nested.of_append.le
  have totals := balanced.totals
  simp [openings_cons, closings_cons, closes, totals] at counted

end Token

namespace Expr

open Token (Nested Balanced Matched AllMatched openings closings openings_append closings_append
  openings_cons closings_cons Stands)

/-! ## Parentheses of expressions -/

/-- A token that denotes an atom is no parenthesis and not the end of the input. -/
theorem kind_of_atom? {token : Token} {outcome : Except Error Expr}
    (denotes : atom? token = some outcome) :
    token.kind ≠ .openParen ∧ token.kind ≠ .closeParen ∧ token.kind ≠ .endOfInput := by
  refine ⟨?_, ?_, ?_⟩ <;> intro same <;> simp [atom?, same] at denotes

theorem Spells.balanced {items : List Expr} {tokens : List Token} (spells : Spells items tokens) :
    Balanced tokens := by
  induction spells with
  | nil => exact Token.balanced_nil
  | @atom token tokens atom items denotes spells ih =>
      obtain ⟨notOpen, notClose, _⟩ := kind_of_atom? denotes
      exact (Token.balanced_atom notOpen notClose).append ih
  | @list opening closing inner tokens items others opens inside closes spells insideIh ih =>
      have whole := (insideIh.enclosed opens closes).append ih
      rwa [List.cons_append, List.append_assoc, List.singleton_append] at whole

theorem Spells.not_end {items : List Expr} {tokens : List Token} (spells : Spells items tokens) :
    ∀ token ∈ tokens, token.kind ≠ .endOfInput := by
  induction spells with
  | nil => simp
  | atom denotes spells ih =>
      intro token among
      rcases List.mem_cons.1 among with rfl | among
      · exact (kind_of_atom? denotes).2.2
      · exact ih token among
  | list opens inside closes spells insideIh ih =>
      intro token among
      simp only [List.mem_cons, List.mem_append] at among
      rcases among with rfl | among | rfl | among
      · simp [opens]
      · exact insideIh token among
      · simp [closes]
      · exact ih token among

/-- The lists that are open are the ones that have been opened and not closed. -/
theorem Pending.counts {opened : List (List Expr)} {before : List Token}
    (pending : Pending opened before) :
    Nested before ∧ openings before = closings before + opened.length := by
  induction pending with
  | none => exact ⟨Token.balanced_nil.nested, rfl⟩
  | @opened items outer opening before inner pending opens inside ih =>
      obtain ⟨nested, counted⟩ := ih
      have totals := inside.balanced.totals
      have notClose : opening.kind ≠ .closeParen := by simp [opens]
      refine ⟨nested.append (inside.balanced.nested.cons_open opens), ?_⟩
      simp only [openings_append, closings_append, openings_cons, closings_cons, if_pos opens,
        if_neg notClose, counted, totals, List.length_cons]
      omega

theorem Pending.not_end {opened : List (List Expr)} {before : List Token}
    (pending : Pending opened before) : ∀ token ∈ before, token.kind ≠ .endOfInput := by
  induction pending with
  | none => simp
  | opened pending opens inside ih =>
      intro token among
      simp only [List.mem_append, List.mem_cons] at among
      rcases among with among | rfl | among
      · exact ih token among
      · simp [opens]
      · exact inside.not_end token among

/-! ## Where reading stops -/

/-- No token is taken for a number that is none. -/
def Numeric (tokens : List Token) : Prop :=
  ∀ token ∈ tokens, ∀ error, atom? token ≠ some (.error error)

/-- Reading stops at a closing parenthesis behind balanced tokens, or where the tokens end
although a list is still open. -/
inductive Stops (stop : Position) (tokens : List Token) : Error → Prop where
  | closing {front rest : List Token} {closing : Token} : tokens = front ++ closing :: rest →
      closing.kind = .closeParen → Balanced front → Stops stop tokens (unexpected closing)
  | ending {front rest : List Token} : tokens = front ++ rest → atEnd rest = true →
      (∀ token ∈ front, token.kind ≠ .endOfInput) → Nested front →
        closings front < openings front → Stops stop tokens (unexpectedEnd stop)

theorem Stops.after {stop : Position} {items : List Expr} {used tokens : List Token}
    {error : Error} (stops : Stops stop tokens error) (spells : Spells items used) :
    Stops stop (used ++ tokens) error := by
  have balanced := spells.balanced
  cases stops with
  | closing same closes inside =>
      exact .closing (by rw [same, List.append_assoc]) closes (balanced.append inside)
  | ending same done notEnd nested more =>
      refine .ending (by rw [same, List.append_assoc]) done ?_ (balanced.nested.append nested) ?_
      · intro token among
        rcases List.mem_append.1 among with among | among
        · exact spells.not_end token among
        · exact notEnd token among
      · rw [openings_append, closings_append, balanced.totals]
        omega

theorem Pending.stops {stop : Position} {items : List Expr} {outer : List (List Expr)}
    {before rest : List Token} (pending : Pending (items :: outer) before)
    (done : atEnd rest = true) : Stops stop (before ++ rest) (unexpectedEnd stop) := by
  obtain ⟨nested, counted⟩ := pending.counts
  refine .ending rfl done pending.not_end nested ?_
  rw [counted, List.length_cons]
  omega

/-- A token that is neither an atom nor a parenthesis is the end of the input. -/
theorem atEnd_of_atom?_eq_none {token : Token} (noAtom : atom? token = none)
    (notOpen : token.kind ≠ .openParen) (notClose : token.kind ≠ .closeParen)
    (tokens : List Token) : atEnd (token :: tokens) = true := by
  cases kind : token.kind with
  | endOfInput => simp [atEnd, kind]
  | openParen => exact absurd kind notOpen
  | closeParen => exact absurd kind notClose
  | number =>
      simp only [atom?, kind] at noAtom
      split at noAtom <;> cases noAtom
  | string => simp [atom?, kind] at noAtom
  | boolean => simp [atom?, kind] at noAtom
  | symbol => simp [atom?, kind] at noAtom

/-- Reading one expression stops at once at a closing parenthesis that no open list waits
for, or at the end of the tokens. By induction on the tokens, with the lists that are open
as the invariant. -/
theorem stops_of_readFrom {stop : Position} {opened : List (List Expr)}
    {before tokens left : List Token} {error : Error} (numeric : Numeric tokens)
    (pending : Pending opened before) (more : opened = [] → atEnd tokens = false)
    (read : readFrom stop opened tokens = (.error error, left)) :
    Stops stop (before ++ tokens) error := by
  induction tokens generalizing opened before with
  | nil =>
      obtain ⟨same, -⟩ := Prod.mk.inj read
      obtain rfl := Except.error.inj same
      cases opened with
      | nil => exact absurd (more rfl) (by simp [atEnd])
      | cons items outer => exact pending.stops rfl
  | cons token tokens ih =>
      have numericRest : Numeric tokens := by
        intro other among
        exact numeric other (List.mem_cons_of_mem _ among)
      -- one token is taken, and a list is open then
      have step {items : List Expr} {outer : List (List Expr)}
          (pending : Pending (items :: outer) (before ++ [token]))
          (read : readFrom stop (items :: outer) tokens = (.error error, left)) :
          Stops stop (before ++ token :: tokens) error := by
        rw [List.append_cons]
        exact ih numericRest pending (by simp) read
      simp only [readFrom] at read
      split at read
      · rename_i fault wrong
        exact absurd wrong (numeric token List.mem_cons_self fault)
      · rename_i atom denotes
        split at read
        · cases read
        · exact step (pending.item (.atom denotes .nil)) read
      · rename_i noAtom
        split at read
        · rename_i opens
          exact step (@Pending.opened [] _ _ _ _ pending opens .nil) read
        · rename_i closes
          cases pending
          obtain ⟨same, -⟩ := Prod.mk.inj read
          obtain rfl := Except.error.inj same
          exact .closing rfl closes Token.balanced_nil
        · cases read
        · rename_i items around outer closes
          obtain ⟨front, inside, rfl, outside, spells⟩ := pending.close closes
          refine step ?_ read
          rw [List.append_assoc]
          exact outside.item spells
        · rename_i notOpen notClose
          have done := atEnd_of_atom?_eq_none noAtom notOpen notClose tokens
          rw [more rfl] at done
          cases done
        · rename_i items outer notOpen notLast notInner
          have notClose : token.kind ≠ .closeParen := by
            intro closes
            cases outer with
            | nil => exact notLast closes rfl
            | cons around outer => exact notInner around outer closes rfl
          obtain ⟨same, -⟩ := Prod.mk.inj read
          obtain rfl := Except.error.inj same
          exact pending.stops (atEnd_of_atom?_eq_none noAtom notOpen notClose tokens)

/-- An error of reading says where it stops. By induction on the number of tokens: what is
read before the error is balanced. -/
theorem stops_of_readAllFrom {stop : Position} {tokens : List Token} {error : Error}
    (numeric : Numeric tokens) (read : readAllFrom stop tokens = .error error) :
    Stops stop tokens error := by
  induction size : tokens.length using Nat.strong_induction_on generalizing tokens with
  | _ bound ih =>
  cases more : atEnd tokens with
  | true =>
      rw [readAllFrom_of_atEnd more] at read
      cases read
  | false =>
      cases first : readFrom stop [] tokens with
      | mk outcome left =>
      cases outcome with
      | error fault =>
          rw [readAllFrom_of_error more first] at read
          obtain rfl := Except.error.inj read
          exact stops_of_readFrom numeric .none (fun _ => more) first
      | ok expression =>
          have shorter := length_readFrom_lt first
          obtain ⟨used, rfl, spells⟩ := spells_of_readFrom .none first
          rw [readAllFrom_of_ok more first] at read
          cases others : readAllFrom stop left with
          | ok items =>
              rw [others] at read
              cases read
          | error fault =>
              rw [others] at read
              obtain rfl := Except.error.inj read
              have numericLeft : Numeric left := by
                intro token among
                exact numeric token (List.mem_append_right _ among)
              exact (ih left.length (by omega) numericLeft others rfl).after spells

end Expr

/-! ## What tokens say -/

/-- What a token says, wherever it stands: a number, or a text of some kind. -/
inductive Lexical where
  | number (value : Number)
  | plain (kind : TokenKind) (text : String)
  deriving DecidableEq, Repr

/-- What a token says. A number token that is not written as a number says nothing. -/
def Token.lexical? (token : Token) : Option Lexical :=
  match token.kind with
  | .number => (Number.ofText? token.value.toList).map .number
  | kind => some (.plain kind token.value)

namespace Expr

mutual

/-- What the tokens of an expression say: its atoms in their order, and parentheses around
the items of a list. -/
def flatten : Expr → List Lexical
  | .number value => [.number value]
  | .string text => [.plain .string text]
  | .boolean value => [.plain .boolean (if value then "true" else "false")]
  | .symbol name => [.plain .symbol name]
  | .list items => .plain .openParen "(" :: (flattenItems items ++ [.plain .closeParen ")"])

/-- What the tokens of expressions one after the other say. -/
def flattenItems : List Expr → List Lexical
  | [] => []
  | item :: items => flatten item ++ flattenItems items

end

end Expr

namespace Token

/-- A token is written as the tokens of its kind are. -/
structure Written (token : Token) : Prop where
  notEnd : token.kind ≠ .endOfInput
  openParen : token.kind = .openParen → token.value = "("
  closeParen : token.kind = .closeParen → token.value = ")"
  boolean : token.kind = .boolean → token.value = "true" ∨ token.value = "false"
  number : token.kind = .number → Numeral token.value.toList

theorem written_of_covers {before text after : List Char} {token : Token}
    (covers : Covers before text after token.kind token.value) : token.Written := by
  obtain ⟨kind, value, span⟩ := token
  dsimp only at covers
  cases covers with
  | openParen => constructor <;> simp
  | closeParen => constructor <;> simp
  | string => constructor <;> simp
  | word _ _ isKind =>
      have among := isKind.among
      refine ⟨?_, ?_, ?_, ?_, ?_⟩ <;> dsimp only
      · rintro rfl
        simp at among
      · rintro rfl
        simp at among
      · rintro rfl
        simp at among
      · intro isBoolean
        rcases isKind.boolean.1 isBoolean with rfl | rfl <;> simp
      · intro isNumber
        rw [String.toList_ofList]
        exact isKind.number.1 isNumber

/-- The tokens of a text are written as those of their kinds are, up to the end of the
input, which stands behind the last character. -/
theorem written_of_lex {source : String} {file? : Option String} {tokens : List Token}
    (lexed : lex source file? = .ok tokens) :
    ∃ front, tokens = front ++ [⟨.endOfInput, "EOF", .between (Text.byteLength source.toList)
        (Text.byteLength source.toList) (file?.getD "shell")⟩] ∧
      ∀ token ∈ front, token.Written ∧ token.span.file = file?.getD "shell" := by
  have laid := lex_explains source file?
  rw [lexed] at laid
  have closed := Laid.getLast? laid
  rw [List.nil_append, spanAfter, List.append_nil] at closed
  obtain ⟨front, rfl⟩ := List.getLast?_eq_some_iff.1 closed
  refine ⟨front, rfl, ?_⟩
  intro token among
  obtain ⟨_, _, _, _, placed, covers⟩ := Laid.stand laid token (by simpa using among)
  exact ⟨written_of_covers covers, congrArg Span.file placed⟩

end Token

namespace Expr

open Token (Nested Balanced Matched AllMatched openings closings Written)

/-! ## Expressions say what their tokens say -/

theorem lexical?_of_atom? {token : Token} {atom : Expr} (written : token.Written)
    (denotes : atom? token = some (.ok atom)) :
    ∃ lexical, token.lexical? = some lexical ∧ flatten atom = [lexical] := by
  cases kind : token.kind with
  | number =>
      simp only [atom?, kind] at denotes
      split at denotes
      · rename_i value number
        obtain rfl := Except.ok.inj (Option.some.inj denotes)
        exact ⟨.number value, by simp [Token.lexical?, kind, number], rfl⟩
      · cases denotes
  | string =>
      simp only [atom?, kind, Option.some.injEq, Except.ok.injEq] at denotes
      exact ⟨.plain .string token.value, by simp [Token.lexical?, kind], by rw [← denotes]; rfl⟩
  | boolean =>
      simp only [atom?, kind, Option.some.injEq, Except.ok.injEq] at denotes
      refine ⟨.plain .boolean token.value, by simp [Token.lexical?, kind], ?_⟩
      rcases written.boolean kind with same | same <;> simp [← denotes, same, flatten]
  | symbol =>
      simp only [atom?, kind, Option.some.injEq, Except.ok.injEq] at denotes
      exact ⟨.plain .symbol token.value, by simp [Token.lexical?, kind], by rw [← denotes]; rfl⟩
  | endOfInput => simp [atom?, kind] at denotes
  | openParen => simp [atom?, kind] at denotes
  | closeParen => simp [atom?, kind] at denotes

theorem Spells.lexicals {items : List Expr} {tokens : List Token} (spells : Spells items tokens)
    (written : ∀ token ∈ tokens, token.Written) :
    tokens.map Token.lexical? = (flattenItems items).map some := by
  induction spells with
  | nil => rfl
  | @atom token tokens atom items denotes spells ih =>
      obtain ⟨lexical, denoted, flat⟩ :=
        lexical?_of_atom? (written token List.mem_cons_self) denotes
      rw [List.map_cons, denoted, ih fun other among => written other (List.mem_cons_of_mem _ among),
        flattenItems, flat]
      rfl
  | @list opening closing inner tokens items others opens inside closes spells insideIh ih =>
      have opened : opening.lexical? = some (.plain .openParen "(") := by
        simp [Token.lexical?, opens, (written opening (by simp)).openParen opens]
      have closed : closing.lexical? = some (.plain .closeParen ")") := by
        simp [Token.lexical?, closes, (written closing (by simp)).closeParen closes]
      have within := insideIh fun other among => written other (by simp [among])
      have behind := ih fun other among => written other (by simp [among])
      simp [flattenItems, flatten, opened, closed, within, behind]

/-! ## Reading the tokens of a text -/

/-- Where tokens that end with the end of the input come apart before an end, they do so in
front of that one. -/
theorem eq_of_append_atEnd {front used rest : List Token} {last : Token}
    (ends : last.kind = .endOfInput) (notEnd : ∀ token ∈ front, token.kind ≠ .endOfInput)
    (same : front ++ [last] = used ++ rest) (done : atEnd rest = true)
    (notEndUsed : ∀ token ∈ used, token.kind ≠ .endOfInput) : used = front ∧ rest = [last] := by
  induction front generalizing used with
  | nil =>
      cases used with
      | nil => exact ⟨rfl, same.symm⟩
      | cons first used =>
          obtain ⟨rfl, -⟩ := List.cons.inj same
          exact absurd ends (notEndUsed _ List.mem_cons_self)
  | cons token front ih =>
      cases used with
      | nil =>
          rw [List.nil_append] at same
          have first : token.kind = .endOfInput := by simpa [← same, atEnd] using done
          exact absurd first (notEnd token List.mem_cons_self)
      | cons first used =>
          obtain ⟨rfl, behind⟩ := List.cons.inj same
          obtain ⟨rfl, rfl⟩ := ih (fun token among => notEnd token (List.mem_cons_of_mem _ among))
            behind fun token among => notEndUsed token (List.mem_cons_of_mem _ among)
          exact ⟨rfl, rfl⟩

/-- A written token that is a number denotes one. -/
theorem numeric_of_token {token : Token} (written : token.Written) (error : Error) :
    atom? token ≠ some (.error error) := by
  intro wrong
  cases kind : token.kind with
  | number =>
      obtain ⟨value, number⟩ := Number.ofText?_of_numeral (written.number kind)
      simp [atom?, kind, number] at wrong
  | _ => simp [atom?, kind] at wrong

theorem numeric_of_written {front : List Token} {last : Token}
    (written : ∀ token ∈ front, token.Written) (ends : last.kind = .endOfInput) :
    Numeric (front ++ [last]) := by
  intro token among error
  rcases List.mem_append.1 among with among | among
  · exact numeric_of_token (written token among) error
  · obtain rfl := List.mem_singleton.1 among
    simp [atom?, ends]

theorem balanced_end {last : Token} (ends : last.kind = .endOfInput) : Balanced [last] :=
  Token.balanced_atom (by simp [ends]) (by simp [ends])

/-- Where reading stops, the parentheses are not balanced: there is a first closing
parenthesis without a match, or every one has a match and a list is open at the end. -/
theorem Stops.unbalanced {stop : Position} {front : List Token} {last : Token} {error : Error}
    (stops : Stops stop (front ++ [last]) error) (ends : last.kind = .endOfInput)
    (notEnd : ∀ token ∈ front, token.kind ≠ .endOfInput) :
    ¬ Balanced (front ++ [last]) ∧
      ((∃ before closing after, front ++ [last] = before ++ closing :: after ∧
        closing.kind = .closeParen ∧ AllMatched before ∧ ¬ Matched before ∧
        error = unexpected closing) ∨
      AllMatched (front ++ [last]) ∧ error = unexpectedEnd stop) := by
  cases stops with
  | @closing before rest closing same closes balanced =>
      refine ⟨?_, .inl ⟨before, closing, rest, same, closes, balanced.nested.allMatched,
        balanced.not_matched, rfl⟩⟩
      intro whole
      exact balanced.not_nested closes (same ▸ whole.nested)
  | ending same done notEndBefore nested more =>
      obtain ⟨rfl, -⟩ := eq_of_append_atEnd ends notEnd same done notEndBefore
      have finish := balanced_end ends
      refine ⟨?_, .inr ⟨(nested.append finish.nested).allMatched, rfl⟩⟩
      intro whole
      have totals := whole.totals
      rw [Token.closings_append, Token.openings_append, finish.totals] at totals
      omega

/-- **The tokens of a text are read exactly when their parentheses are balanced.** The
expressions then say what the tokens say. Otherwise the error is that of the first closing
parenthesis without a match, or of the end of the text when there is none. No token is
refused as a number. -/
theorem readAll_balanced {source : String} {file? : Option String} {tokens : List Token}
    (lexed : Token.lex source file? = .ok tokens) :
    ((∃ items, readAll tokens = .ok items) ↔ Balanced tokens) ∧
    (∀ items, readAll tokens = .ok items →
      tokens.dropLast.map Token.lexical? = (flattenItems items).map some) ∧
    (∀ error, readAll tokens = .error error →
      (∃ before closing after, tokens = before ++ closing :: after ∧
        closing.kind = .closeParen ∧ AllMatched before ∧ ¬ Matched before ∧
        error = (Fault.unexpectedToken ")").atPosition
          ⟨closing.span.start, file?.getD "shell"⟩) ∨
      AllMatched tokens ∧ error = (Fault.unexpectedToken "EOF").atPosition
        (.after (Text.byteLength source.toList) (file?.getD "shell"))) ∧
    ∀ token ∈ tokens, ∀ error, atom? token ≠ some (.error error) := by
  obtain ⟨front, whole, placed⟩ := Token.written_of_lex lexed
  generalize lastToken : (⟨.endOfInput, "EOF", _⟩ : Token) = last at whole
  subst whole
  have ends : last.kind = .endOfInput := by rw [← lastToken]
  have written : ∀ token ∈ front, token.Written := fun token among => (placed token among).1
  have notEnd : ∀ token ∈ front, token.kind ≠ .endOfInput := fun token among =>
    (written token among).notEnd
  have numeric := numeric_of_written written ends
  have spelled : ∀ items, readAll (front ++ [last]) = .ok items → Spells items front := by
    intro items read
    obtain ⟨used, rest, same, done, spells⟩ := spells_of_readAllFrom read
    obtain ⟨rfl, -⟩ := eq_of_append_atEnd ends notEnd same done spells.not_end
    exact spells
  have stopped : ∀ error, readAll (front ++ [last]) = .error error → _ := fun error read =>
    (stops_of_readAllFrom numeric read).unbalanced ends notEnd
  refine ⟨⟨?_, ?_⟩, ?_, ?_, numeric⟩
  · rintro ⟨items, read⟩
    exact (spelled items read).balanced.append (balanced_end ends)
  · intro balanced
    cases read : readAll (front ++ [last]) with
    | ok items => exact ⟨items, rfl⟩
    | error error => exact absurd balanced (stopped error read).1
  · intro items read
    rw [List.dropLast_concat]
    exact (spelled items read).lexicals written
  · intro error read
    rcases (stopped error read).2 with
      ⟨before, closing, after, same, closes, earlier, unmatched, rfl⟩ | ⟨all, rfl⟩
    · have among : closing ∈ front ++ [last] := by simp [same]
      have inFront : closing ∈ front := by
        rcases List.mem_append.1 among with among | among
        · exact among
        · rw [List.mem_singleton.1 among, ends] at closes
          cases closes
      obtain ⟨isWritten, file⟩ := placed closing inFront
      refine .inl ⟨before, closing, after, same, closes, earlier, unmatched, ?_⟩
      rw [unexpected, isWritten.closeParen closes, Span.startPosition, file]
    · refine .inr ⟨all, ?_⟩
      rw [unexpectedEnd, endPosition, List.getLast?_concat, ← lastToken]
      rfl

/-- A text that closes a list too many and then leaves another one open. -/
theorem readAll_balanced_overclosed :
    ∃ tokens, Token.lex "(a) ) (b -1.50" none = .ok tokens ∧ ¬ Balanced tokens ∧
      readAll tokens = .error ((Fault.unexpectedToken ")").atPosition ⟨4, "shell"⟩) ∧
      ∃ before closing after, tokens = before ++ closing :: after ∧
        closing.kind = .closeParen ∧ AllMatched before ∧ ¬ Matched before ∧
        closing.span.start = 4 := by
  obtain ⟨tokens, lexed, stopped⟩ : ∃ tokens, Token.lex "(a) ) (b -1.50" none = .ok tokens ∧
      readAll tokens = .error ((Fault.unexpectedToken ")").atPosition ⟨4, "shell"⟩) :=
    ⟨[⟨.openParen, "(", ⟨0, 1, "shell"⟩⟩, ⟨.symbol, "a", ⟨1, 2, "shell"⟩⟩,
        ⟨.closeParen, ")", ⟨2, 3, "shell"⟩⟩, ⟨.closeParen, ")", ⟨4, 5, "shell"⟩⟩,
        ⟨.openParen, "(", ⟨6, 7, "shell"⟩⟩, ⟨.symbol, "b", ⟨7, 8, "shell"⟩⟩,
        ⟨.number, "-1.50", ⟨9, 14, "shell"⟩⟩, ⟨.endOfInput, "EOF", ⟨14, 14, "shell"⟩⟩],
      by decide +kernel, by decide +kernel⟩
  obtain ⟨accepted, -, refused, -⟩ := readAll_balanced lexed
  refine ⟨tokens, lexed, ?_, stopped, ?_⟩
  · intro balanced
    obtain ⟨items, read⟩ := accepted.2 balanced
    rw [stopped] at read
    cases read
  · rcases refused _ stopped with
      ⟨before, closing, after, same, closes, earlier, unmatched, place⟩ | ⟨-, place⟩
    · refine ⟨before, closing, after, same, closes, earlier, unmatched, ?_⟩
      simpa [Fault.atPosition] using place.symm
    · simp [Fault.atPosition] at place

end Expr

end TypedLisp
