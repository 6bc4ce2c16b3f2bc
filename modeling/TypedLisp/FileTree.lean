import TypedLisp.Path
import TypedLisp.Text.Utf8

/-!
# Trees of files

A tree holds the files and directories below a working directory. Reading a file
follows a path step by step, and the first step that fails decides how the
reading fails. Of what lies beyond the working directory a tree knows only that
there are directories to go up to.

A path has less than `Path.limit` bytes and a name at most `Path.nameLimit`. The
length of the path is looked at before the first step. The length of a name is
looked at when the step to it is taken, so a path that fails earlier fails in the
earlier way.
-/

set_option autoImplicit false

namespace TypedLisp

/-- Why a file could not be read. -/
inductive ReadFailure where
  | notFound
  | notDirectory
  | isDirectory
  | nameTooLong
  | notText
  | other (reason : String)
  deriving DecidableEq, Repr

/-- The reason of a failure to read a file. -/
def ReadFailure.message : ReadFailure → String
  | .notFound => "No such file or directory (os error 2)"
  | .notDirectory => "Not a directory (os error 20)"
  | .isDirectory => "Is a directory (os error 21)"
  | .nameTooLong => "File name too long (os error 36)"
  | .notText => "stream did not contain valid UTF-8"
  | .other reason => reason

namespace Path

/-- The number of bytes from which on a path is too long. -/
def limit : Nat := 4096

/-- The greatest number of bytes in a name. -/
def nameLimit : Nat := 255

end Path

/-- The files and directories below a working directory, each under the names
that lead to it. -/
structure FileTree where
  entries : List (List String × Option ByteArray)

namespace FileTree

/-- A tree without files. -/
def empty : FileTree := ⟨[]⟩

/-- A directory: one below the working directory, given by the names that lead to
it, or one beyond. -/
inductive Place where
  | within (names : List String)
  | beyond
  deriving DecidableEq, Repr

/-- The directory around a directory. -/
def Place.parent : Place → Place
  | .within [] => .beyond
  | .within (name :: names) => .within (name :: names).dropLast
  | .beyond => .beyond

/-- The directory that a path starts from. -/
def Place.start (path : String) : Place := if Path.isAbsolute path then .beyond else .within []

/-! ## Building a tree -/

/-- What stands under some names: the bytes of a file, or none for a
directory. -/
def get? (tree : FileTree) (names : List String) : Option (Option ByteArray) :=
  (tree.entries.find? (·.1 = names)).map (·.2)

/-- Puts a file or a directory under some names, in place of what was there. -/
def put (tree : FileTree) (names : List String) (entry : Option ByteArray) : FileTree :=
  ⟨(names, entry) :: tree.entries.filter (·.1 ≠ names)⟩

/-- Makes a directory, unless something has its names. -/
def makeDirectory (tree : FileTree) (names : List String) : FileTree :=
  match tree.get? names with
  | some _ => tree
  | none => tree.put names none

/-- Writes a file at the end of some steps from a directory, and makes the
directories on the way. -/
def writeFrom (bytes : ByteArray) : FileTree → Place → List Path.Step → FileTree
  | tree, _, [] => tree
  | tree, place, .stay :: rest => writeFrom bytes tree place rest
  | tree, place, .up :: rest => writeFrom bytes tree place.parent rest
  | tree, .beyond, .into _ :: _ => tree
  | tree, .within names, .into name :: rest =>
      let path := names ++ [name]
      if rest = [] then tree.put path (some bytes)
      else writeFrom bytes (tree.makeDirectory path) (.within path) rest

/-- Writes a file at a path. -/
def write (tree : FileTree) (path : String) (bytes : ByteArray) : FileTree :=
  writeFrom bytes tree (.start path) (Path.steps path)

/-! ## Reading a file -/

/-- The bytes of the file at the end of some steps from a directory. -/
def readFrom (tree : FileTree) : Place → List Path.Step → Except ReadFailure ByteArray
  | _, [] => .error .isDirectory
  | place, .stay :: rest => tree.readFrom place rest
  | place, .up :: rest => tree.readFrom place.parent rest
  | place, .into name :: rest =>
      if Path.nameLimit < Text.byteLength name.toList then .error .nameTooLong
      else
        match place with
        | .beyond => .error .notFound
        | .within names =>
            match tree.get? (names ++ [name]) with
            | none => .error .notFound
            | some none => tree.readFrom (.within (names ++ [name])) rest
            | some (some bytes) => if rest = [] then .ok bytes else .error .notDirectory

/-- The bytes of the file at a path. -/
def read (tree : FileTree) (path : String) : Except ReadFailure ByteArray :=
  if path = "" then .error .notFound
  else if Path.limit ≤ Text.byteLength path.toList then .error .nameTooLong
  else tree.readFrom (.start path) (Path.steps path)

end FileTree

end TypedLisp
