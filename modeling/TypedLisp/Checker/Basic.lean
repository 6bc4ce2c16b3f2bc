import TypedLisp.Checker.Rules
import TypedLisp.Expr.Reader

/-!
# Checking

Checking an expression checks its parts, and a call of a generic function also
checks the stored body of that function. The depth to which checking may go is
bounded in advance, and a run that would go deeper has no outcome.

The bound counts the text at hand: the expression and the bodies of all generic
functions. A body that is being checked is not entered again, and the generic
functions that a body makes have bodies inside it, so only so many bodies can be
entered one inside the other.
-/

set_option autoImplicit false

namespace TypedLisp

namespace Checker

/-- The type of an expression in a scope, found without going deeper than the
given depth. -/
def typeOf : Nat → Expr → ScopeId → CheckM TypeId
  | 0, _, _ => CheckM.exhausted
  | depth + 1, expression, scope => checkExpr (typeOf depth) expression scope

end Checker

namespace Session

/-- The result of checking, with the session after it. There is none when the
bound on the depth was too low. -/
abbrev Outcome := Option (Except Error TypeId × Session)

/-- The depth to which checking an expression may go. -/
def depthBound (session : Session) (expression : Expr) : Nat :=
  let size := expression.size + session.types.templateSize
  Nat.pow (size + 4) (size + 8)

/-- Checks an expression in a scope. -/
def typeOf (session : Session) (expression : Expr) (scope : ScopeId) : Outcome :=
  (Checker.typeOf (session.depthBound expression) expression scope).runOn session

/-- Checks an expression in the global scope. -/
def typeOfGlobal (session : Session) (expression : Expr) : Outcome :=
  session.typeOf expression .global

/-- Checks a program. The items of a block are checked in the global scope
itself, so that what they declare stays. -/
def typeOfProgram (session : Session) (program : Expr) : Outcome :=
  (Checker.checkBody (Checker.typeOf (session.depthBound program)) program .global).runOn session

/-- Reads a source text as a program and checks it. -/
def checkSource (session : Session) (source : String) : Outcome :=
  match Expr.readProgram source none with
  | .ok program => session.typeOfProgram program
  | .error error => some (.error error, session)

/-- Resolves the text of a type. -/
def resolve (session : Session) (text : String) : Except Fault TypeId × Session :=
  let (outcome, types) := (Registry.resolve text).run.run session.types
  (outcome, { session with types })

end Session

end TypedLisp
