/-!
# Paths

A path is a text that leads from directory to directory, one step after each
slash. An empty step and a single dot stay in the directory, two dots go to the
directory around it, and any other text goes to what has that name.
-/

set_option autoImplicit false

namespace TypedLisp.Path

/-- One step of a path. -/
inductive Step where
  | stay
  | up
  | into (name : String)
  deriving DecidableEq, Repr

/-- The step that a text between slashes stands for. -/
def Step.ofText (text : String) : Step :=
  if text = "" ∨ text = "." then .stay
  else if text = ".." then .up
  else .into text

/-- The steps of a path. A slash at the front or at the end gives a step that
stays. -/
def steps (path : String) : List Step :=
  (path.toList.splitOn '/').map fun text => .ofText (String.ofList text)

/-- Whether a path starts at the root and not at the working directory. -/
def isAbsolute (path : String) : Bool := path.toList.head? = some '/'

/-- The name that a path goes to in its last step that does not stay. -/
def lastName? (path : String) : Option String :=
  match ((steps path).filter (· ≠ .stay)).getLast? with
  | some (.into name) => some name
  | _ => none

end TypedLisp.Path
