import TypedLisp.Number.Basic

/-!
# Expressions

A program is made of expressions: numbers, strings, booleans, symbols and
lists of expressions. The reader builds them, and the checker never changes
them.
-/

set_option autoImplicit false

namespace TypedLisp

/-- A piece of a program: an atom or a list of pieces. -/
inductive Expr where
  | number (value : Number)
  | string (text : String)
  | boolean (value : Bool)
  | symbol (name : String)
  | list (items : List Expr)
  deriving Repr

namespace Expr

instance : Inhabited Expr := ⟨.list []⟩

mutual

/-- Decides whether two expressions are the same. -/
def decEq : (left right : Expr) → Decidable (left = right)
  | .number left, .number right =>
      if same : left = right then isTrue (by rw [same]) else isFalse (by simpa using same)
  | .string left, .string right =>
      if same : left = right then isTrue (by rw [same]) else isFalse (by simpa using same)
  | .boolean left, .boolean right =>
      if same : left = right then isTrue (by rw [same]) else isFalse (by simpa using same)
  | .symbol left, .symbol right =>
      if same : left = right then isTrue (by rw [same]) else isFalse (by simpa using same)
  | .list left, .list right =>
      match decEqItems left right with
      | isTrue same => isTrue (by rw [same])
      | isFalse different => isFalse (by simpa using different)
  | .number _, .string _ | .number _, .boolean _ | .number _, .symbol _ | .number _, .list _
  | .string _, .number _ | .string _, .boolean _ | .string _, .symbol _ | .string _, .list _
  | .boolean _, .number _ | .boolean _, .string _ | .boolean _, .symbol _ | .boolean _, .list _
  | .symbol _, .number _ | .symbol _, .string _ | .symbol _, .boolean _ | .symbol _, .list _
  | .list _, .number _ | .list _, .string _ | .list _, .boolean _ | .list _, .symbol _ =>
      isFalse (by simp)

/-- Decides whether two lists of expressions are the same. -/
def decEqItems : (left right : List Expr) → Decidable (left = right)
  | [], [] => isTrue rfl
  | [], _ :: _ | _ :: _, [] => isFalse (by simp)
  | left :: lefts, right :: rights =>
      match decEq left right, decEqItems lefts rights with
      | isTrue same, isTrue sames => isTrue (by rw [same, sames])
      | isFalse different, _ => isFalse (by simp [different])
      | _, isFalse different => isFalse (by simp [different])

end

instance : DecidableEq Expr := decEq

/-- The name of a symbol. -/
def symbol? : Expr → Option String
  | .symbol name => some name
  | _ => none

/-- The items of a list. -/
def items? : Expr → Option (List Expr)
  | .list items => some items
  | _ => none

/-- The symbol that a list starts with. -/
def head? : Expr → Option String
  | .list (.symbol name :: _) => some name
  | _ => none

/-- Whether an expression is not a list. -/
def isAtom : Expr → Bool
  | .list _ => false
  | _ => true

mutual

/-- The number of atoms and lists in an expression. -/
def size : Expr → Nat
  | .list items => itemsSize items + 1
  | _ => 1

/-- The number of atoms and lists in a list of expressions. -/
def itemsSize : List Expr → Nat
  | [] => 0
  | item :: items => size item + itemsSize items

end

end Expr

end TypedLisp
