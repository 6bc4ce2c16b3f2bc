import TypedLisp.Form.Classify
import TypedLisp.Session.Step

/-!
# Rules of checking

Each form has a rule that gives its type in a scope. The rules take the checking
of smaller expressions as a parameter, `visit`, so that each can be read and
reasoned about on its own; the next module ties them together.

Checking goes from left to right and stops at the first error. The scopes that a
rule opens are released whether it fails or not; a declaration of a function or
a class that fails puts the declared name back to what it was.
-/

set_option autoImplicit false

namespace TypedLisp.Checker

open CheckM

variable (visit : Expr → ScopeId → CheckM TypeId)

/-! ## Sequences and bodies -/

/-- The type of the last of several expressions. -/
def sequence : List Expr → ScopeId → CheckM TypeId
  | [], _ => throw (Form.unknown (.list []))
  | [item], scope => visit item scope
  | item :: next :: items, scope => do
      let _ ← visit item scope
      sequence (next :: items) scope

/-- The type of a body. The items of a block are checked in the given scope
itself. -/
def checkBody (body : Expr) (scope : ScopeId) : CheckM TypeId :=
  match body with
  | .list (.symbol "begin" :: item :: items) => sequence visit (item :: items) scope
  | _ => visit body scope

/-! ## Functions -/

/-- The types of the parameters of a signature, with their names. -/
def parameterTypes (parameters : List (String × String)) (expression : Expr) :
    CheckM (List (String × TypeId)) :=
  parameters.mapM fun (name, text) => do
    return (name, ← registering expression (Registry.resolve text))

/-- Checks a body with the parameters bound in a new scope, and yields the
function type. -/
def checkFunction (parameters : List (String × TypeId)) (result : TypeId) (body : Expr)
    (scope : ScopeId) (expression : Expr) : CheckM TypeId := do
  let actual ← inChild scope fun inner => do
    modifyScopes fun scopes =>
      parameters.foldl (fun scopes (name, type) => scopes.define inner name type) scopes
    checkBody visit body inner
  ask expression fun session => session.types.expect actual result
  making (·.function (parameters.map Prod.snd) result)

/-- The function type that a signature declares. -/
def signatureType (signature : Signature) (expression : Expr) : CheckM TypeId := do
  let parameters ← parameterTypes signature.parameters expression
  let result ← registering expression (Registry.resolve signature.result)
  making (·.function (parameters.map Prod.snd) result)

/-- Keeps a generic function and pins the scope around it. -/
def keepTemplate (signature : Signature) (scope : ScopeId) : CheckM TypeId := do
  modifyScopes (·.pin scope)
  making (·.addTemplate
    ⟨signature.generics, signature.parameters, signature.result, signature.body, scope⟩)

/-- A function. One with generic names is kept for later. -/
def checkLambda (signature : Signature) (scope : ScopeId) (expression : Expr) : CheckM TypeId :=
  if signature.isGeneric then keepTemplate signature scope
  else do
    let parameters ← parameterTypes signature.parameters expression
    let result ← registering expression (Registry.resolve signature.result)
    checkFunction visit parameters result signature.body scope expression

/-- Checks the body of a generic function with types in the places of its generic
names, and yields the function type. A generic function cannot be instantiated
while its own body is being checked. -/
def instantiate (generic : TypeId) (typeArguments : List String) (callee expression : Expr) :
    CheckM TypeId := do
  match (← get).types.template? generic with
  | none =>
      ask expression fun session =>
        .error (.typeMismatch "generic function" (session.types.name generic))
  | some template =>
      if typeArguments.length = template.generics.length then
        let substituted := TypeText.substitute template.generics typeArguments
        let parameters ← parameterTypes
          (template.parameters.map fun (name, text) => (name, substituted text)) expression
        let result ← registering expression (Registry.resolve (substituted template.result))
        emit (.instantiated template.generics typeArguments)
        if (← get).active.contains generic then
          throw ((Fault.unresolvedReference callee.text).inExpr expression)
        else
          modify fun session => { session with active := generic :: session.active }
          let outcome ← attempt
            (checkFunction visit parameters result template.body template.scope expression)
          modify fun session => { session with active := session.active.erase generic }
          settle outcome
      else
        throw ((Fault.arityMismatch "type arguments" template.generics.length
          typeArguments.length).inExpr expression)

/-! ## Declarations -/

/-- The declaration of an alias or of a union. -/
def checkTypeDecl (name : String) (base : TypeBase) (expression : Expr) : CheckM TypeId := do
  let type ← registering expression <|
    match base with
    | .alias parent => Registry.declareAlias name parent
    | .union members => Registry.declareUnion name members
  emit (.declaredType name)
  return type

/-- The declaration of a class. Its name is bound before its body is checked, and
it is forgotten when the body fails. -/
def checkClassDecl (name : String) (superclass : Option String) (body : Expr) (scope : ScopeId)
    (expression : Expr) : CheckM TypeId := do
  let superclass ← superclass.mapM fun parent => ask expression (·.classNamed parent)
  let inner ← openScope scope
  let type ← undoing (registering expression (Registry.declareClass name superclass inner))
    fun session => { session with scopes := session.scopes.release inner }
  modifyScopes (·.pin inner)
  let previous := (← get).scopes.getLocal? scope name
  modifyScopes (·.define scope name type)
  emit (.declaredClass name)
  let _ ← undoing (checkBody visit body inner) fun session =>
    { session with
      types := session.types.forget name
      scopes := session.scopes.restore scope name previous }
  return type

/-- The type of a variable: the declared one, which its value must fit, or else
the type of its value. -/
def variableType (typeText : Option String) (actual : TypeId) (expression : Expr) :
    CheckM TypeId :=
  match typeText with
  | some typeText => do
      let declared ← registering expression (Registry.resolve typeText)
      ask expression fun session => session.types.expect actual declared
      return declared
  | none => return actual

/-- The declaration of a variable. -/
def checkVariable (target : Binding) (value : Expr) (scope : ScopeId) (expression : Expr) :
    CheckM TypeId := do
  let actual ← visit value scope
  let type ← variableType target.typeText actual expression
  modifyScopes (·.define scope target.name type)
  return type

/-- Binds the name of a function to the type that its signature declares, unless
the function is generic. -/
def announce (name : String) (signature : Signature) (scope : ScopeId) (expression : Expr) :
    CheckM Unit :=
  if signature.isGeneric then return ()
  else do
    let type ← signatureType signature expression
    modifyScopes (·.define scope name type)

/-- The declaration of a function, which is a variable bound to a `lambda`. The
name is announced beforehand, so that the body can call it. -/
def checkFunctionDecl (name : String) (signature : Signature) (scope : ScopeId)
    (expression : Expr) : CheckM TypeId := do
  let previous := (← get).scopes.getLocal? scope name
  announce name signature scope expression
  undoing (visit (.list [.symbol "var", .symbol name, signature.toLambda]) scope) fun session =>
    { session with scopes := session.scopes.restore scope name previous }

/-! ## Operations -/

/-- The types that an operation of arithmetic takes. -/
def operandTypes : Arithmetic → List TypeId
  | .add => [.string, .number]
  | .subtract | .multiply | .divide => [.number]

/-- An operation of arithmetic on two operands of the same type. -/
def checkArithmetic (operator : Arithmetic) (left right : Expr) (scope : ScopeId)
    (expression : Expr) : CheckM TypeId := do
  let leftType ← visit left scope
  let rightType ← visit right scope
  let allowed := operandTypes operator
  ask expression fun session => session.types.expectOperand leftType allowed
  ask expression fun session => session.types.expectOperand rightType allowed
  ask expression fun session => session.types.expect rightType leftType
  return rightType

/-- A comparison of two operands of the same type. -/
def checkComparison (left right : Expr) (scope : ScopeId) (expression : Expr) :
    CheckM TypeId := do
  let leftType ← visit left scope
  let rightType ← visit right scope
  ask expression fun session => session.types.expect rightType leftType
  return .boolean

/-- The construction of an object: a call of its constructor with the object in
front of the arguments. -/
def checkConstruct (className : String) (arguments : List Expr) (scope : ScopeId)
    (expression : Expr) : CheckM TypeId := do
  let object ← ask expression (·.classNamed className)
  let types ← arguments.mapM (visit · scope)
  let constructor ← ask expression (·.field object "constructor")
  let _ ← ask expression fun session =>
    session.types.callResult constructor (object :: types) "constructor"
  return object

/-- A field of an object. -/
def checkProperty (object : Expr) (field : String) (scope : ScopeId) (expression : Expr) :
    CheckM TypeId := do
  let type ← visit object scope
  ask expression (·.field type field)

/-- The declared type of what an assignment changes. -/
def targetType (target : AssignTarget) (scope : ScopeId) (expression : Expr) : CheckM TypeId :=
  match target with
  | .name name => ask expression fun session => session.scopes.lookup scope name
  | .property object field => checkProperty visit object field scope expression

/-- An assignment, which has the declared type of what it changes. -/
def checkAssign (target : AssignTarget) (value : Expr) (scope : ScopeId) (expression : Expr) :
    CheckM TypeId := do
  let declared ← targetType visit target scope expression
  let actual ← visit value scope
  ask expression fun session => session.types.expect actual declared
  return declared

/-- A condition, which is boolean. -/
def checkCondition (condition : Expr) (scope : ScopeId) : CheckM Unit := do
  let type ← visit condition scope
  ask condition fun session => session.types.expect type .boolean

/-- The side of a branch that is taken when the condition holds. A name that the
condition narrows has the narrower type there. -/
def checkConsequent (narrowing : Option Narrowing) (consequent : Expr) (scope : ScopeId)
    (expression : Expr) : CheckM TypeId :=
  match narrowing with
  | some narrowing => do
      let narrowed ← registering expression (Registry.resolve narrowing.typeName)
      inChild scope fun inner => do
        modifyScopes (·.define inner narrowing.name narrowed)
        visit consequent inner
  | none => visit consequent scope

/-- A branch, both sides of which have the same type. -/
def checkBranch (condition : Expr) (narrowing : Option Narrowing) (consequent alternative : Expr)
    (scope : ScopeId) (expression : Expr) : CheckM TypeId := do
  checkCondition visit condition scope
  let type ← checkConsequent visit narrowing consequent scope expression
  let other ← visit alternative scope
  ask expression fun session => session.types.expect other type
  return type

/-- The type that a call calls. A generic function needs its type arguments. -/
def calledType (calleeType : TypeId) (typeArguments : Option (List String))
    (callee expression : Expr) : CheckM TypeId :=
  match typeArguments with
  | some typeArguments => instantiate visit calleeType typeArguments callee expression
  | none =>
      ask expression fun session =>
        match session.types.template? calleeType with
        | some template =>
            .error (.arityMismatch ("type arguments of " ++ callee.text)
              template.generics.length 0)
        | none => .ok calleeType

/-- A call. -/
def checkCall (callee : Expr) (typeArguments : Option (List String)) (arguments : List Expr)
    (scope : ScopeId) (expression : Expr) : CheckM TypeId := do
  let calleeType ← visit callee scope
  let function ← calledType visit calleeType typeArguments callee expression
  let types ← arguments.mapM (visit · scope)
  ask expression fun session => session.types.callResult function types callee.text

/-! ## Forms -/

/-- The type of a literal. -/
def literalType : LiteralKind → TypeId
  | .number => .number
  | .string => .string
  | .boolean => .boolean

/-- The type of a form in a scope. -/
def checkForm (form : Form) (scope : ScopeId) (expression : Expr) : CheckM TypeId :=
  match form with
  | .literal kind => return literalType kind
  | .arithmetic operator left right => checkArithmetic visit operator left right scope expression
  | .comparison _ left right => checkComparison visit left right scope expression
  | .typeDecl name base => checkTypeDecl name base expression
  | .classDecl name superclass body => checkClassDecl visit name superclass body scope expression
  | .construct className arguments => checkConstruct visit className arguments scope expression
  | .super className => ask expression (·.superclassOf className)
  | .property object field => checkProperty visit object field scope expression
  | .varDecl target value => checkVariable visit target value scope expression
  | .identifier name => ask expression fun session => session.scopes.lookup scope name
  | .assign target value => checkAssign visit target value scope expression
  | .block items => inChild scope fun inner => sequence visit items inner
  | .branch condition narrowing consequent alternative =>
      checkBranch visit condition narrowing consequent alternative scope expression
  | .loop condition body => do
      checkCondition visit condition scope
      visit body scope
  | .functionDecl name signature => checkFunctionDecl visit name signature scope expression
  | .lambda signature => checkLambda visit signature scope expression
  | .typeOf inner => do
      let _ ← visit inner scope
      return .string
  | .call callee typeArguments arguments =>
      checkCall visit callee typeArguments arguments scope expression

/-- The type of an expression in a scope. -/
def checkExpr (expression : Expr) (scope : ScopeId) : CheckM TypeId := do
  let form ← settle (Form.classify expression)
  emit (.visited expression)
  checkForm visit form scope expression

end TypedLisp.Checker
