import TypedLisp.Form.Basic
import TypedLisp.TypeText

/-!
# Classification of expressions

Every expression is one form or none. Literals come first; a symbol must be an
identifier. A list is read by its head: an operator, a keyword, or else the
callee of a call. A list that has the wrong number of operands, or operands of
the wrong shape, is refused with the whole list as the offending expression;
the target of an assignment is refused on its own account.
-/

set_option autoImplicit false

namespace TypedLisp.Form

/-- The words that start a form or divide one. -/
def keywords : List String :=
  ["var", "set", "begin", "if", "while", "def", "lambda", "type", "class", "new", "super", "prop",
    "typeof", "->"]

/-- Whether a character can stand in an identifier. -/
def isIdentifierChar (character : Char) : Bool :=
  character.isAlphanum || "_+-*<>=:".toList.contains character

/-- Whether a symbol is an identifier. -/
def isIdentifier (name : String) : Bool :=
  !name.toList.isEmpty && name.toList.all isIdentifierChar && !keywords.contains name

/-! ## Refusals -/

/-- The error of an expression of no form. -/
def unknown (expression : Expr) : Error := Fault.unknownExpression.inExpr expression

/-- The error of a form with the wrong number of operands. -/
def wrongArity (expression : Expr) (construct : String) (expected received : Nat) : Error :=
  (Fault.arityMismatch construct expected received).inExpr expression

/-- The name of an operand that must be a symbol. -/
def symbolOf (expression : Expr) : Expr → Except Error String
  | .symbol name => .ok name
  | _ => .error (unknown expression)

/-! ## Parts of forms -/

/-- The declared name of `x` or `(x T)`. -/
def bindingOf (expression : Expr) : Expr → Except Error Binding
  | .symbol name => .ok ⟨name, none⟩
  | .list [name, typeText] => do
      return ⟨← symbolOf expression name, some (← symbolOf expression typeText)⟩
  | _ => .error (unknown expression)

/-- A parameter, which needs a type. -/
def parameterOf (expression parameter : Expr) : Except Error (String × String) := do
  match ← bindingOf expression parameter with
  | ⟨name, some typeText⟩ => return (name, typeText)
  | ⟨_, none⟩ => throw (unknown expression)

/-- Splits a leading list of generic names from the operands. -/
def splitGenerics : List Expr → Option (List String) × List Expr
  | .symbol symbol :: rest =>
      match TypeText.genericList? symbol with
      | some generics => (some generics, rest)
      | none => (none, .symbol symbol :: rest)
  | operands => (none, operands)

/-- The signature that the operands of `lambda` and `def` declare. -/
def signatureOf (expression : Expr) (tag : String) (operands : List Expr) :
    Except Error Signature :=
  let (generics, rest) := splitGenerics operands
  match rest with
  | [parameters, arrow, result, body] =>
      match arrow.symbol?, parameters.items? with
      | some "->", some parameters => do
          let parameters ← parameters.mapM (parameterOf expression)
          return ⟨generics.getD [], parameters, ← symbolOf expression result, body⟩
      | _, _ => .error (unknown expression)
  | _ => .error (wrongArity expression tag 4 rest.length)

/-- The name and the type text of a condition that narrows a name. -/
def narrowingOf : Expr → Option Narrowing
  | .list [.symbol "==", .list [.symbol "typeof", .symbol name], .string typeName] =>
      some ⟨name, typeName⟩
  | _ => none

/-! ## Forms of lists -/

/-- A call. A callee that is a literal needs type arguments to be one. -/
def callOf (expression callee : Expr) (operands : List Expr) : Except Error Form :=
  match splitGenerics operands with
  | (some typeArguments, arguments) => .ok (.call callee (some typeArguments) arguments)
  | (none, arguments) =>
      if callee.isAtom && callee.symbol?.isNone then .error (unknown expression)
      else .ok (.call callee none arguments)

/-- The form of an operation with two operands. -/
def binaryOf (expression : Expr) (tag : String) (form : Expr → Expr → Form) :
    List Expr → Except Error Form
  | [left, right] => .ok (form left right)
  | operands => .error (wrongArity expression tag 2 operands.length)

/-- The declaration of an alias or of a union. -/
def typeDeclOf (expression : Expr) : List Expr → Except Error Form
  | [name, base] => do
      let name ← symbolOf expression name
      match base with
      | .symbol parent => return .typeDecl name (.alias parent)
      | .list (.symbol "or" :: members) =>
          return .typeDecl name (.union (← members.mapM (symbolOf expression)))
      | _ => throw (unknown expression)
  | operands => .error (wrongArity expression "type" 2 operands.length)

/-- The declaration of a class; the superclass `null` is none. -/
def classDeclOf (expression : Expr) : List Expr → Except Error Form
  | [name, superclass, body] => do
      let name ← symbolOf expression name
      let superclass ← symbolOf expression superclass
      return .classDecl name (if superclass = "null" then none else some superclass) body
  | operands => .error (wrongArity expression "class" 3 operands.length)

/-- The construction of an object. -/
def constructOf (expression : Expr) : List Expr → Except Error Form
  | [] => .error (wrongArity expression "new" 1 0)
  | className :: arguments => do return .construct (← symbolOf expression className) arguments

/-- The superclass of a class. -/
def superclassOf (expression : Expr) : List Expr → Except Error Form
  | [className] => do return .super (← symbolOf expression className)
  | operands => .error (wrongArity expression "super" 1 operands.length)

/-- A field of an object. -/
def propertyOf (expression : Expr) : List Expr → Except Error Form
  | [object, field] => do return .property object (← symbolOf expression field)
  | operands => .error (wrongArity expression "prop" 2 operands.length)

/-- The declaration of a variable. -/
def variableOf (expression : Expr) : List Expr → Except Error Form
  | [target, value] => do return .varDecl (← bindingOf expression target) value
  | operands => .error (wrongArity expression "var" 2 operands.length)

/-- A block, which has at least one item. -/
def blockOf (expression : Expr) : List Expr → Except Error Form
  | [] => .error (unknown expression)
  | items => .ok (.block items)

/-- A branch. -/
def branchOf (expression : Expr) : List Expr → Except Error Form
  | [condition, consequent, alternative] =>
      .ok (.branch condition (narrowingOf condition) consequent alternative)
  | operands => .error (wrongArity expression "if" 3 operands.length)

/-- The declaration of a function. -/
def functionOf (expression : Expr) : List Expr → Except Error Form
  | [] => .error (wrongArity expression "def" 4 0)
  | name :: operands => do
      return .functionDecl (← symbolOf expression name) (← signatureOf expression "def" operands)

/-- The name of the type of an expression. -/
def typeQueryOf (expression : Expr) : List Expr → Except Error Form
  | [inner] => .ok (.typeOf inner)
  | operands => .error (wrongArity expression "typeof" 1 operands.length)

/-- The form of a list that starts with a keyword other than `set`. -/
def keywordOf (expression : Expr) (tag : String) (operands : List Expr) : Except Error Form :=
  match tag with
  | "type" => typeDeclOf expression operands
  | "class" => classDeclOf expression operands
  | "new" => constructOf expression operands
  | "super" => superclassOf expression operands
  | "prop" => propertyOf expression operands
  | "var" => variableOf expression operands
  | "begin" => blockOf expression operands
  | "if" => branchOf expression operands
  | "while" => binaryOf expression tag .loop operands
  | "def" => functionOf expression operands
  | "lambda" => do return .lambda (← signatureOf expression tag operands)
  | "typeof" => typeQueryOf expression operands
  | _ => .error (unknown expression)

/-- The form of a list that starts with a symbol other than `set`. -/
def taggedOf (expression : Expr) (tag : String) (operands : List Expr) : Except Error Form :=
  match Arithmetic.ofSymbol tag, Comparison.ofSymbol tag with
  | .ok operator, _ => binaryOf expression tag (.arithmetic operator) operands
  | _, .ok operator => binaryOf expression tag (.comparison operator) operands
  | .error _, .error _ =>
      if keywords.contains tag then keywordOf expression tag operands
      else callOf expression (.symbol tag) operands

/-- The form of an expression. -/
def classify : Expr → Except Error Form
  | .number _ => .ok (.literal .number)
  | .string _ => .ok (.literal .string)
  | .boolean _ => .ok (.literal .boolean)
  | .symbol name =>
      if isIdentifier name then .ok (.identifier name) else .error (unknown (.symbol name))
  | .list [] => .error (unknown (.list []))
  | .list (.symbol tag :: operands) =>
      if tag = "set" then
        match operands with
        | [.symbol name, value] => .ok (.assign (.name name) value)
        | [target, value] =>
            match classify target with
            | .ok (.property object field) => .ok (.assign (.property object field) value)
            | .ok _ => .error (unknown (.list (.symbol tag :: operands)))
            | .error error => .error error
        | _ => .error (wrongArity (.list (.symbol tag :: operands)) tag 2 operands.length)
      else taggedOf (.list (.symbol tag :: operands)) tag operands
  | .list (callee :: operands) => callOf (.list (callee :: operands)) callee operands

end TypedLisp.Form
