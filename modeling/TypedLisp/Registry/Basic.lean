import TypedLisp.Error
import TypedLisp.NameTable
import TypedLisp.Ty

/-!
# Registries of types

A registry keeps every type that has been made, in the order of making. The
primitives, aliases, unions and classes can be found by their declared names.
Function types are made once: a second table leads from their texts to them,
among them the canonical one.

Making types never changes or removes one. Only `forget` removes anything, and
what it removes is a declared name, not a type.
-/

set_option autoImplicit false

namespace TypedLisp

/-- The types of a session, their declared names, and the texts of the function
types. -/
structure Registry where
  types : Array Ty
  names : NameTable TypeId
  functions : NameTable TypeId
  deriving DecidableEq, Repr

/-- A step that reads and extends a registry. What it has added stays when it
fails. -/
abbrev RegistryM := ExceptT Fault (StateM Registry)

namespace Registry

/-- The registry of the primitives. -/
def initial : Registry where
  types := #[.primitive .number, .primitive .string, .primitive .boolean, .primitive .any]
  names := ⟨[("number", .number), ("string", .string), ("boolean", .boolean), ("any", .any)]⟩
  functions := .empty

/-- The type of a handle. -/
def get? (registry : Registry) (id : TypeId) : Option Ty := registry.types[id.index]?

/-- The name of the type of a handle. -/
def name (registry : Registry) (id : TypeId) : String :=
  match registry.get? id with
  | some type => type.name
  | none => ""

/-- The primitive, alias, union or class of a declared name. -/
def lookup? (registry : Registry) (name : String) : Option TypeId := registry.names.get? name

/-- Removes a declared name. -/
def forget (registry : Registry) (name : String) : Registry :=
  { registry with names := registry.names.erase name }

/-- Adds a type. -/
def add (registry : Registry) (type : Ty) : TypeId × Registry :=
  (⟨registry.types.size⟩, { registry with types := registry.types.push type })

/-- Adds a type under a declared name. -/
def declare (registry : Registry) (name : String) (type : Ty) : TypeId × Registry :=
  let (id, extended) := registry.add type
  (id, { extended with names := extended.names.insert name id })

/-- The canonical name of a function type. -/
def functionName (registry : Registry) (parameters : List TypeId) (result : TypeId) : String :=
  "Fn<" ++ registry.name result ++
    (if parameters.isEmpty then ""
      else "<" ++ String.intercalate "," (parameters.map registry.name) ++ ">") ++ ">"

/-- The function type with the given parameters and result, made when there is
none of its canonical name. -/
def function (registry : Registry) (parameters : List TypeId) (result : TypeId) :
    TypeId × Registry :=
  let name := registry.functionName parameters result
  match registry.functions.get? name with
  | some id => (id, registry)
  | none =>
      let (id, extended) := registry.add (.function ⟨name, parameters, result⟩)
      (id, { extended with functions := extended.functions.insert name id })

/-- Lets a further text stand for a function type. -/
def spell (registry : Registry) (text : String) (id : TypeId) : Registry :=
  { registry with functions := registry.functions.insert text id }

/-- The type that a text stands for without being taken apart. -/
def known? (registry : Registry) (text : String) : Option TypeId :=
  match registry.lookup? text with
  | some id => some id
  | none => registry.functions.get? text

/-! ## Declarations -/

/-- Refuses a name that is declared already. -/
def claim (name : String) : RegistryM Unit := do
  if (← get).names.contains name then throw (.redeclaration name)

/-- Declares a class. -/
def declareClass (name : String) (superclass : Option TypeId) (scope : ScopeId) :
    RegistryM TypeId := do
  claim name
  modifyGet fun registry => registry.declare name (.nominal ⟨name, superclass, scope⟩)

/-- Adds a generic function. -/
def addTemplate (registry : Registry) (template : Template) : TypeId × Registry :=
  registry.add (.generic template)

/-- The number of atoms and lists in the bodies of the generic functions, and one
for each of them. -/
def templateSize (registry : Registry) : Nat :=
  registry.types.foldl
    (fun total type =>
      match type with
      | .generic template => total + template.body.size + 1
      | _ => total) 0

end Registry

end TypedLisp
