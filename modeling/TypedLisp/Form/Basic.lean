import TypedLisp.Error

/-!
# Forms

A form says what an expression means to the checker: a literal, an operation,
a declaration, an assignment, a block, a branch, a function or a call.
-/

set_option autoImplicit false

namespace TypedLisp

/-- The operations of arithmetic. -/
inductive Arithmetic where
  | add
  | subtract
  | multiply
  | divide
  deriving DecidableEq, Repr

/-- The operation of arithmetic that a symbol names. -/
def Arithmetic.ofSymbol (symbol : String) : Except Fault Arithmetic :=
  if symbol = "+" then .ok .add
  else if symbol = "-" then .ok .subtract
  else if symbol = "*" then .ok .multiply
  else if symbol = "/" then .ok .divide
  else .error (.unknownOperator symbol)

/-- The comparisons. -/
inductive Comparison where
  | equals
  | notEquals
  | greaterEquals
  | lessEquals
  | greater
  | less
  deriving DecidableEq, Repr

/-- The comparison that a symbol names. -/
def Comparison.ofSymbol (symbol : String) : Except Fault Comparison :=
  if symbol = "==" then .ok .equals
  else if symbol = "!=" then .ok .notEquals
  else if symbol = ">=" then .ok .greaterEquals
  else if symbol = "<=" then .ok .lessEquals
  else if symbol = ">" then .ok .greater
  else if symbol = "<" then .ok .less
  else .error (.unknownOperator symbol)

/-- The kinds of literals. -/
inductive LiteralKind where
  | number
  | string
  | boolean
  deriving DecidableEq, Repr

/-- What a type declaration stands for: another type under a new name, or a
choice of types. -/
inductive TypeBase where
  | alias (parent : String)
  | union (members : List String)
  deriving DecidableEq, Repr

/-- A declared name, written `x` or `(x T)`. -/
structure Binding where
  name : String
  typeText : Option String
  deriving DecidableEq, Repr

/-- What an assignment changes: a name or a field of an object. -/
inductive AssignTarget where
  | name (name : String)
  | property (object : Expr) (field : String)
  deriving DecidableEq, Repr

/-- The name and the type text of a condition `(== (typeof x) "T")`. -/
structure Narrowing where
  name : String
  typeName : String
  deriving DecidableEq, Repr

/-- What `lambda` and `def` declare: generic names, parameters with their type
texts, the type text of the result, and the body. -/
structure Signature where
  generics : List String
  parameters : List (String × String)
  result : String
  body : Expr
  deriving DecidableEq, Repr

namespace Signature

/-- Whether there are generic names. -/
def isGeneric (signature : Signature) : Bool := !signature.generics.isEmpty

/-- The list of generic names as a symbol. -/
def genericSymbol (signature : Signature) : Expr :=
  .symbol ("<" ++ String.intercalate "," signature.generics ++ ">")

/-- The `lambda` expression of a signature. -/
def toLambda (signature : Signature) : Expr :=
  let parameters := signature.parameters.map fun (name, type) =>
    Expr.list [.symbol name, .symbol type]
  .list (.symbol "lambda" :: (if signature.isGeneric then [signature.genericSymbol] else []) ++
    [.list parameters, .symbol "->", .symbol signature.result, signature.body])

end Signature

/-- The meaning of an expression. -/
inductive Form where
  | literal (kind : LiteralKind)
  | arithmetic (operator : Arithmetic) (left right : Expr)
  | comparison (operator : Comparison) (left right : Expr)
  | typeDecl (name : String) (base : TypeBase)
  | classDecl (name : String) (superclass : Option String) (body : Expr)
  | construct (className : String) (arguments : List Expr)
  | super (className : String)
  | property (object : Expr) (field : String)
  | varDecl (target : Binding) (value : Expr)
  | identifier (name : String)
  | assign (target : AssignTarget) (value : Expr)
  | block (items : List Expr)
  | branch (condition : Expr) (narrowing : Option Narrowing) (consequent alternative : Expr)
  | loop (condition body : Expr)
  | functionDecl (name : String) (signature : Signature)
  | lambda (signature : Signature)
  | typeOf (inner : Expr)
  | call (callee : Expr) (typeArguments : Option (List String)) (arguments : List Expr)
  deriving DecidableEq, Repr

end TypedLisp
