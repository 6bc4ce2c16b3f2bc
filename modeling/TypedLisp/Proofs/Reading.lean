import TypedLisp.Expr.Reader

/-!
# What tokens spell

Tokens spell expressions when each atom is the one that its token denotes and each list
stands between an opening and a closing parenthesis (`Spells`). Expressions are read from
the tokens that spell them (`readAllFrom_of_spells`), and what is read is spelled by the
tokens that were taken (`spells_of_readAllFrom`).

The lists that are open but not yet closed are spelled by the tokens since the start
(`Pending`): this is the invariant of reading one expression.
-/

set_option autoImplicit false

namespace TypedLisp.Expr

/-- The tokens spell the expressions. -/
inductive Spells : List Expr → List Token → Prop where
  | nil : Spells [] []
  | atom {token : Token} {tokens : List Token} {atom : Expr} {items : List Expr} :
      atom? token = some (.ok atom) → Spells items tokens → Spells (atom :: items) (token :: tokens)
  | list {opening closing : Token} {inner tokens : List Token} {items others : List Expr} :
      opening.kind = .openParen → Spells items inner → closing.kind = .closeParen →
        Spells others tokens →
          Spells (.list items :: others) (opening :: (inner ++ closing :: tokens))

theorem Spells.append {first second : List Expr} {front back : List Token}
    (spells : Spells first front) (others : Spells second back) :
    Spells (first ++ second) (front ++ back) := by
  induction spells with
  | nil => exact others
  | atom denotes spells ih => exact .atom denotes ih
  | list opens inside closes spells insideIh ih =>
      rw [List.cons_append, List.cons_append, List.append_assoc, List.cons_append]
      exact .list opens inside closes ih

theorem atom?_of_openParen {token : Token} (opens : token.kind = .openParen) :
    atom? token = none := by
  simp [atom?, opens]

theorem atom?_of_closeParen {token : Token} (closes : token.kind = .closeParen) :
    atom? token = none := by
  simp [atom?, closes]

theorem not_atEnd_of_atom? {token : Token} {atom : Expr}
    (denotes : atom? token = some (.ok atom)) (tokens : List Token) :
    atEnd (token :: tokens) = false := by
  have notEnd : token.kind ≠ .endOfInput := by
    intro ends
    simp [atom?, ends] at denotes
  simpa [atEnd] using notEnd

/-! ## Reading what is spelled -/

section Steps

variable {stop : Position} {token : Token} {tokens : List Token}

theorem readFrom_atom {atom : Expr} (denotes : atom? token = some (.ok atom))
    (items : List Expr) (outer : List (List Expr)) :
    readFrom stop (items :: outer) (token :: tokens) =
      readFrom stop ((atom :: items) :: outer) tokens := by
  simp [readFrom, denotes]

theorem readFrom_open (opens : token.kind = .openParen) (opened : List (List Expr)) :
    readFrom stop opened (token :: tokens) = readFrom stop ([] :: opened) tokens := by
  simp [readFrom, atom?_of_openParen opens, opens]

theorem readFrom_close (closes : token.kind = .closeParen) (items around : List Expr)
    (outer : List (List Expr)) :
    readFrom stop (items :: around :: outer) (token :: tokens) =
      readFrom stop ((.list items.reverse :: around) :: outer) tokens := by
  simp [readFrom, atom?_of_closeParen closes, closes]

theorem readFrom_last (closes : token.kind = .closeParen) (items : List Expr) :
    readFrom stop [items] (token :: tokens) = (.ok (.list items.reverse), tokens) := by
  simp [readFrom, atom?_of_closeParen closes, closes]

end Steps

/-- Inside an open list, spelled expressions become its items. -/
theorem readFrom_of_spells {stop : Position} {items : List Expr} {tokens : List Token}
    (spells : Spells items tokens) (before : List Expr) (outer : List (List Expr))
    (rest : List Token) :
    readFrom stop (before :: outer) (tokens ++ rest) =
      readFrom stop ((items.reverse ++ before) :: outer) rest := by
  induction spells generalizing before outer rest with
  | nil => rfl
  | atom denotes spells ih =>
      rw [List.cons_append, readFrom_atom denotes, ih]
      simp
  | list opens inside closes spells insideIh ih =>
      rw [List.cons_append, List.append_assoc, List.cons_append, readFrom_open opens, insideIh,
        readFrom_close closes, ih]
      simp

/-- Expressions are read from the tokens that spell them, up to the end of the input. -/
theorem readAllFrom_of_spells {stop : Position} {items : List Expr} {tokens rest : List Token}
    (spells : Spells items tokens) (done : atEnd rest = true) :
    readAllFrom stop (tokens ++ rest) = .ok items := by
  induction spells with
  | nil => exact readAllFrom_of_atEnd done
  | @atom token tokens atom items denotes spells ih =>
      have read : readFrom stop [] (token :: (tokens ++ rest)) = (.ok atom, tokens ++ rest) := by
        simp [readFrom, denotes]
      rw [List.cons_append, readAllFrom_of_ok (not_atEnd_of_atom? denotes _) read, ih]
      rfl
  | @list opening closing inner tokens items others opens inside closes spells insideIh ih =>
      have more : atEnd (opening :: (inner ++ closing :: (tokens ++ rest))) = false := by
        simp [atEnd, opens]
      have read : readFrom stop [] (opening :: (inner ++ closing :: (tokens ++ rest))) =
          (.ok (.list items), tokens ++ rest) := by
        rw [readFrom_open opens, readFrom_of_spells inside, readFrom_last closes]
        simp
      rw [List.cons_append, List.append_assoc, List.cons_append, readAllFrom_of_ok more read, ih]
      rfl

/-! ## What is read is spelled -/

/-- The tokens since the start spell the lists that are still open, innermost first. -/
inductive Pending : List (List Expr) → List Token → Prop where
  | none : Pending [] []
  | opened {items : List Expr} {outer : List (List Expr)} {opening : Token}
      {before inner : List Token} :
      Pending outer before → opening.kind = .openParen → Spells items.reverse inner →
        Pending (items :: outer) (before ++ opening :: inner)

theorem Pending.item {expression : Expr} {items : List Expr} {outer : List (List Expr)}
    {before tokens : List Token} (pending : Pending (items :: outer) before)
    (spells : Spells [expression] tokens) :
    Pending ((expression :: items) :: outer) (before ++ tokens) := by
  cases pending with
  | opened around opens inside =>
      rw [List.append_assoc, List.cons_append]
      refine .opened around opens ?_
      rw [List.reverse_cons]
      exact inside.append spells

theorem Pending.close {items : List Expr} {outer : List (List Expr)} {before : List Token}
    {closing : Token} (pending : Pending (items :: outer) before)
    (closes : closing.kind = .closeParen) :
    ∃ around inside, before = around ++ inside ∧ Pending outer around ∧
      Spells [.list items.reverse] (inside ++ [closing]) := by
  cases pending with
  | @opened _ _ opening around inner pending opens inside =>
      exact ⟨around, opening :: inner, rfl, pending, .list opens inside closes .nil⟩

/-- An expression that is read is spelled by the tokens since the start. -/
theorem spells_of_readFrom {stop : Position} {opened : List (List Expr)}
    {before tokens left : List Token} {expression : Expr} (pending : Pending opened before)
    (read : readFrom stop opened tokens = (.ok expression, left)) :
    ∃ used, tokens = used ++ left ∧ Spells [expression] (before ++ used) := by
  induction tokens generalizing opened before with
  | nil => simp [readFrom] at read
  | cons token tokens ih =>
      -- one token is taken, and the rest is read with what is pending then
      have step {opened : List (List Expr)} (pending : Pending opened (before ++ [token]))
          (read : readFrom stop opened tokens = (.ok expression, left)) :
          ∃ used, token :: tokens = used ++ left ∧ Spells [expression] (before ++ used) := by
        obtain ⟨used, rfl, spells⟩ := ih pending read
        exact ⟨token :: used, rfl, by simpa using spells⟩
      simp only [readFrom] at read
      split at read
      · simp at read
      · rename_i atom denotes
        split at read
        · cases pending
          obtain ⟨same, rfl⟩ := Prod.mk.inj read
          obtain rfl := Except.ok.inj same
          exact ⟨[token], rfl, .atom denotes .nil⟩
        · exact step (pending.item (.atom denotes .nil)) read
      · split at read
        · rename_i opens
          exact step (@Pending.opened [] _ _ _ _ pending opens .nil) read
        · simp at read
        · rename_i items closes
          obtain ⟨same, rfl⟩ := Prod.mk.inj read
          obtain rfl := Except.ok.inj same
          obtain ⟨around, inside, rfl, outside, spells⟩ := pending.close closes
          cases outside
          exact ⟨[token], rfl, spells⟩
        · rename_i items around outer closes
          obtain ⟨before, inside, rfl, outside, spells⟩ := pending.close closes
          refine step ?_ read
          rw [List.append_assoc]
          exact outside.item spells
        · simp at read
        · simp at read

/-- What is read up to the end of the input is spelled by the tokens before it. -/
theorem spells_of_readAllFrom {stop : Position} {tokens : List Token} {items : List Expr}
    (read : readAllFrom stop tokens = .ok items) :
    ∃ used rest, tokens = used ++ rest ∧ atEnd rest = true ∧ Spells items used := by
  induction size : tokens.length using Nat.strongRecOn generalizing tokens items with
  | ind bound ih =>
  cases more : atEnd tokens with
  | true =>
      rw [readAllFrom_of_atEnd more] at read
      obtain rfl := Except.ok.inj read
      exact ⟨[], tokens, rfl, more, .nil⟩
  | false =>
      cases first : readFrom stop [] tokens with
      | mk outcome left =>
      cases outcome with
      | error error =>
          rw [readAllFrom_of_error more first] at read
          cases read
      | ok expression =>
          have shorter := length_readFrom_lt first
          obtain ⟨used, rfl, spells⟩ := spells_of_readFrom .none first
          rw [readAllFrom_of_ok more first] at read
          cases others : readAllFrom stop left with
          | error error =>
              rw [others] at read
              cases read
          | ok items =>
              rw [others] at read
              obtain rfl := Except.ok.inj read
              obtain ⟨behind, rest, rfl, done, spelled⟩ := ih left.length (by omega) others rfl
              exact ⟨used ++ behind, rest, by simp, done, spells.append spelled⟩

theorem readText_of_toOption {source : String} {file? : Option String} {items : List Expr}
    (read : (readText source file?).toOption = some items) :
    readText source file? = .ok items := by
  cases outcome : readText source file? with
  | error error =>
      rw [outcome] at read
      cases read
  | ok others =>
      rw [outcome] at read
      rw [Option.some.inj read]

end TypedLisp.Expr
