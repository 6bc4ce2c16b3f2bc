import TypedLisp.Expr.Printer
import TypedLisp.Position

/-!
# Errors

A fault is the cause of a failure. An error is a fault together with the place
where it arose: a position in a source text when the text cannot be read, or
the offending expression when it cannot be checked. Each fault has a name, a
message and, but for an unrecognised token, a tip for the reader.
-/

set_option autoImplicit false

namespace TypedLisp

open Text (quoted)

/-- The cause of a failure. -/
inductive Fault where
  | unrecognisedToken (token : String)
  | unexpectedToken (token : String)
  | unknownExpression
  | typeMismatch (expected received : String)
  | arityMismatch (construct : String) (expected received : Nat)
  | unresolvedReference (name : String)
  | redeclaration (name : String)
  | unknownOperator (operator : String)
  | unknownType (text : String)
  deriving DecidableEq, Repr

namespace Fault

/-- The name under which a fault is reported. -/
def name : Fault → String
  | .unrecognisedToken _ => "UnrecognisedToken"
  | .unexpectedToken _ => "UnexpectedToken"
  | .unknownExpression => "UnknownExpression"
  | .typeMismatch _ _ => "TypeMismatch"
  | .arityMismatch _ _ _ => "ArityMismatch"
  | .unresolvedReference _ => "UnresolvedReference"
  | .redeclaration _ => "RedeclarationError"
  | .unknownOperator _ => "UnknownOperator"
  | .unknownType _ => "UnknownType"

/-- The message of a fault, with the texts it speaks of quoted. -/
def message : Fault → String
  | .unrecognisedToken token => "unrecognised token: " ++ quoted token
  | .unexpectedToken token => "unexpected token: " ++ quoted token
  | .unknownExpression => "unknown expression"
  | .typeMismatch expected received =>
      "types do not match: expected " ++ quoted expected ++ ", received " ++ quoted received
  | .arityMismatch construct expected received =>
      quoted construct ++ " expects " ++ expected.repr ++ " operands, received " ++ received.repr
  | .unresolvedReference name => quoted name ++ " is not defined"
  | .redeclaration name => "type " ++ quoted name ++ " already declared"
  | .unknownOperator operator => "unknown operator " ++ quoted operator
  | .unknownType text => "unknown type " ++ text ++ " found"

/-- A hint for whoever wrote the program. -/
def tip? : Fault → Option String
  | .unrecognisedToken _ => none
  | .unexpectedToken token =>
      some ("Unexpected token: `" ++ token ++ "`, are the parentheses balanced?")
  | .unknownExpression => some "This expression does not match any known form"
  | .typeMismatch expected received =>
      some ("Expected type `" ++ expected ++ "`, received `" ++ received ++ "`")
  | .arityMismatch construct expected received =>
      some ("`" ++ construct ++ "` expects " ++ expected.repr ++ " operands, received " ++
        received.repr)
  | .unresolvedReference name => some ("`" ++ name ++ "` is not defined")
  | .redeclaration name => some ("Type `" ++ name ++ "` is already declared")
  | .unknownOperator operator => some ("Operator `" ++ operator ++ "` is not supported")
  | .unknownType text => some ("Unknown type `" ++ text ++ "` found")

end Fault

/-- Where a fault arose. -/
inductive Context where
  | position (position : Position)
  | expression (expression : Expr)
  deriving DecidableEq, Repr

/-- A fault and where it arose. -/
structure Error where
  fault : Fault
  context : Context
  deriving DecidableEq, Repr

namespace Fault

/-- The error of a fault at a position. -/
def atPosition (fault : Fault) (position : Position) : Error := ⟨fault, .position position⟩

/-- The error of a fault in an expression. -/
def inExpr (fault : Fault) (expression : Expr) : Error := ⟨fault, .expression expression⟩

end Fault

end TypedLisp
