import TypedLisp.Expr.Basic
import TypedLisp.Handle

/-!
# Types

A type is one of the primitives, another type under a new name, a function
type, a choice of types, a class, or a generic function that waits for its type
arguments. Types refer to each other by their handles.
-/

set_option autoImplicit false

namespace TypedLisp

/-- The types that are there from the start. -/
inductive Primitive where
  | number
  | string
  | boolean
  | any
  deriving DecidableEq, Repr

/-- The name of a primitive type. -/
def Primitive.name : Primitive → String
  | .number => "number"
  | .string => "string"
  | .boolean => "boolean"
  | .any => "any"

/-- A function type with its canonical name. -/
structure FunctionType where
  name : String
  parameters : List TypeId
  result : TypeId
  deriving DecidableEq, Repr

/-- A class, whose fields and methods are the names of a scope. -/
structure ClassType where
  name : String
  superclass : Option TypeId
  scope : ScopeId
  deriving DecidableEq, Repr

/-- A generic function: its generic names, its parameters and result as texts
that may speak of them, its body, and the scope around it. -/
structure Template where
  generics : List String
  parameters : List (String × String)
  result : String
  body : Expr
  scope : ScopeId
  deriving DecidableEq, Repr

/-- The name of a generic function's type. -/
def Template.name (template : Template) : String :=
  "<" ++ String.intercalate "," template.generics ++ ">Fn<" ++ template.result ++ "<" ++
    String.intercalate "," (template.parameters.map Prod.snd) ++ ">>"

/-- A type. -/
inductive Ty where
  | primitive (kind : Primitive)
  | alias (name : String) (parent : TypeId)
  | function (signature : FunctionType)
  | union (name : String) (members : List TypeId)
  | nominal (declared : ClassType)
  | generic (template : Template)
  deriving DecidableEq, Repr

/-- The name of a type. -/
def Ty.name : Ty → String
  | .primitive kind => kind.name
  | .alias name _ => name
  | .function signature => signature.name
  | .union name _ => name
  | .nominal declared => declared.name
  | .generic template => template.name

end TypedLisp
