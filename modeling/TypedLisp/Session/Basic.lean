import TypedLisp.Registry.Compare
import TypedLisp.Registry.Resolve
import TypedLisp.Scopes

/-!
# Sessions

A session is all that checking reads and changes: the types, the scopes, the
generic functions whose bodies are being checked, and the events so far. A
session goes on after a failure.

The questions that checking asks a session are answered here without changing
it: the class of a name, a field of an object, whether a type fits where another
is expected, and the result of a call.
-/

set_option autoImplicit false

namespace TypedLisp

/-! ## Events -/

/-- How much an event matters. -/
inductive Level where
  | trace
  | debug
  deriving DecidableEq, Repr

/-- The name of a level. -/
def Level.name : Level → String
  | .trace => "TRACE"
  | .debug => "DEBUG"

/-- Something that happened while checking. -/
inductive Event where
  | visited (expression : Expr)
  | declaredType (name : String)
  | declaredClass (name : String)
  | instantiated (generics arguments : List String)
  deriving DecidableEq, Repr

namespace Event

/-- How much an event matters. -/
def level : Event → Level
  | .visited _ => .trace
  | .declaredType _ | .declaredClass _ | .instantiated _ _ => .debug

/-- The text of an event. -/
def text : Event → String
  | .visited expression => "type_of " ++ expression.text
  | .declaredType name => "registered type `" ++ name ++ "`"
  | .declaredClass name => "registered class `" ++ name ++ "`"
  | .instantiated generics arguments =>
      "instantiating <" ++ String.intercalate "," generics ++ "> with <" ++
        String.intercalate "," arguments ++ ">"

end Event

/-! ## Sessions -/

/-- The types, the scopes, the generic functions whose bodies are being checked,
the innermost first, and the events, the latest first. -/
structure Session where
  types : Registry
  scopes : Scopes
  active : List TypeId
  events : List Event
  deriving DecidableEq, Repr

namespace Session

/-- Binds a name in the global scope. -/
def defineGlobal (session : Session) (name : String) (type : TypeId) : Session :=
  { session with scopes := session.scopes.define .global name type }

/-- Binds a name in the global scope to a function type. -/
def defineFunction (session : Session) (name : String) (parameters : List TypeId)
    (result : TypeId) : Session :=
  let (type, types) := session.types.function parameters result
  { session with types }.defineGlobal name type

/-- A session that knows the version, over an arena of scopes. -/
def bare (scopes : Scopes) : Session :=
  defineGlobal ⟨.initial, scopes, [], []⟩ "VERSION" .string

/-- Binds the functions that are built in. -/
def withBuiltins (session : Session) : Session :=
  session.defineFunction "sum" [.number, .number] .number
    |>.defineFunction "square" [.number] .number
    |>.defineFunction "concat" [.string, .string] .string
    |>.defineFunction "print" [.any] .string

/-- A new session over an arena of scopes, with or without the functions that
are built in. -/
def initialOver (scopes : Scopes) (builtins : Bool) : Session :=
  if builtins then (bare scopes).withBuiltins else bare scopes

/-- A new session, with or without the functions that are built in. -/
def initial (builtins : Bool) : Session := initialOver (.initial true) builtins

/-! ## Questions to a session -/

/-- The class of a declared name. -/
def classNamed (session : Session) (name : String) : Except Fault TypeId :=
  match session.types.lookup? name with
  | some id =>
      if (session.types.class? id).isSome then .ok id else .error (.unresolvedReference name)
  | none => .error (.unresolvedReference name)

/-- The superclass of a class. -/
def superclassOf (session : Session) (name : String) : Except Fault TypeId := do
  let id ← session.classNamed name
  match (session.types.class? id).bind (·.superclass) with
  | some superclass => .ok superclass
  | none => .error (.unresolvedReference (name ++ ".super"))

/-- The type of a field of an object, found in its class or in the nearest
ancestor that has it. -/
def field (session : Session) (object : TypeId) (name : String) : Except Fault TypeId :=
  match session.types.lineage object with
  | [] => .error (.typeMismatch "class" (session.types.name object))
  | declared :: ancestors =>
      match (declared :: ancestors).findSome? fun declared =>
          session.scopes.getLocal? declared.scope name with
      | some type => .ok type
      | none => .error (.unresolvedReference (declared.name ++ "." ++ name))

end Session

namespace Registry

/-- Refuses a type that does not fit where another is expected. -/
def expect (registry : Registry) (given expected : TypeId) : Except Fault Unit :=
  if registry.fits given expected then .ok ()
  else .error (.typeMismatch (registry.name expected) (registry.name given))

/-- Refuses an operand that is of none of the allowed types. A choice of types
needs every member to be allowed. -/
def expectOperand (registry : Registry) (given : TypeId) (allowed : List TypeId) :
    Except Fault Unit :=
  let supported :=
    if registry.isUnion given then registry.includesAll given allowed
    else allowed.any fun candidate => registry.fits candidate given
  if supported then .ok ()
  else .error (.typeMismatch (String.intercalate " | " (allowed.map registry.name))
    (registry.name given))

/-- Whether an argument may be passed for a parameter. -/
def admits (registry : Registry) (argument parameter : TypeId) : Bool :=
  parameter = .any || registry.fits argument parameter

/-- The result of calling a type with arguments. -/
def callResult (registry : Registry) (callee : TypeId) (arguments : List TypeId)
    (construct : String) : Except Fault TypeId :=
  match registry.function? callee with
  | none => .error (.typeMismatch "function" (registry.name callee))
  | some signature =>
      if arguments.length = signature.parameters.length then
        match (arguments.zip signature.parameters).find? fun (argument, parameter) =>
            !registry.admits argument parameter with
        | some (argument, parameter) =>
            .error (.typeMismatch (registry.name parameter) (registry.name argument))
        | none => .ok signature.result
      else .error (.arityMismatch construct signature.parameters.length arguments.length)

end Registry

end TypedLisp
