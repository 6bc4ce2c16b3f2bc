import TypedLisp.Registry.Basic
import TypedLisp.TypeText

/-!
# Types of texts

A text without its outer blanks stands for the type of that declared name, or
for the function type it has stood for before, or it is taken apart as a
function type: first its parameters in their order, then its result. The text
is then kept as another spelling of the function type. What cannot be taken
apart is an unknown type, named by its text.
-/

set_option autoImplicit false

namespace TypedLisp.Registry

open Text (trim)

set_option linter.unusedVariables false in
/-- The type that the characters of a text stand for. -/
def resolveChars (text : List Char) : RegistryM TypeId := do
  let spelling := String.ofList (trim text)
  match (← get).known? spelling with
  | some id => return id
  | none =>
      match parts : TypeText.functionParts? (trim text) with
      | none => throw (.unknownType spelling)
      | some (parameters, result) =>
          let parameters ← parameters.attach.mapM fun ⟨parameter, _⟩ => resolveChars parameter
          let result ← resolveChars result
          let id ← modifyGet fun registry => registry.function parameters result
          modify fun registry => registry.spell spelling id
          return id
termination_by text.length
decreasing_by
  · rename_i member
    exact Nat.lt_of_lt_of_le ((TypeText.length_lt_of_functionParts? parts).1 _ member)
      (Text.length_trim_le text)
  · exact Nat.lt_of_lt_of_le (TypeText.length_lt_of_functionParts? parts).2
      (Text.length_trim_le text)

/-- The rule of resolution, without the proof that the parts are shorter. -/
theorem resolveChars_eq (text : List Char) :
    resolveChars text = (do
      let spelling := String.ofList (trim text)
      match (← get).known? spelling with
      | some id => return id
      | none =>
          match TypeText.functionParts? (trim text) with
          | none => throw (.unknownType spelling)
          | some (parameters, result) =>
              let parameters ← parameters.mapM resolveChars
              let result ← resolveChars result
              let id ← modifyGet fun registry => registry.function parameters result
              modify fun registry => registry.spell spelling id
              return id) := by
  rw [resolveChars]
  congr 1
  funext registry
  cases registry.known? (String.ofList (trim text)) with
  | some id => rfl
  | none =>
      dsimp only
      split
      · rename_i missing
        rw [missing]
      · rename_i parameters result found
        rw [found]
        simp

/-- The type that a text stands for. -/
def resolve (text : String) : RegistryM TypeId := resolveChars text.toList

/-- Declares another name for the type of a text. -/
def declareAlias (name parent : String) : RegistryM TypeId := do
  claim name
  let parent ← resolve parent
  modifyGet fun registry => registry.declare name (.alias name parent)

/-- Declares a choice of the types of texts. -/
def declareUnion (name : String) (members : List String) : RegistryM TypeId := do
  claim name
  let members ← members.mapM resolve
  modifyGet fun registry => registry.declare name (.union name members)

end TypedLisp.Registry
