/-!
# Handles

Types and scopes are kept in growing arenas and named by their places there.
-/

set_option autoImplicit false

namespace TypedLisp

/-- The place of a type in a registry. -/
structure TypeId where
  index : Nat
  deriving DecidableEq, Repr

/-- The place of a scope in an arena. -/
structure ScopeId where
  index : Nat
  deriving DecidableEq, Repr

namespace TypeId

/-- The type of numbers. -/
def number : TypeId := ⟨0⟩

/-- The type of strings. -/
def string : TypeId := ⟨1⟩

/-- The type of booleans. -/
def boolean : TypeId := ⟨2⟩

/-- The type that a parameter has when it takes every argument. -/
def any : TypeId := ⟨3⟩

end TypeId

/-- The scope around all others. -/
def ScopeId.global : ScopeId := ⟨0⟩

end TypedLisp
