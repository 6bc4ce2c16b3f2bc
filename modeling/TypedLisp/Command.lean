import TypedLisp.Checker.Basic
import TypedLisp.FileTree
import TypedLisp.Report

/-!
# The command

The command takes the path of a source file and may be told to leave out the
functions that are built in. It reads the program, checks it, and says what type
it has or what is wrong with it.

What the command does is a function of its arguments and of the outcome of
reading the file. Where it says how long a phase took, the output has a place
for the time, which is filled in when the output is printed.
-/

set_option autoImplicit false

namespace TypedLisp.Command

/-! ## Arguments -/

/-- What the command is asked to do. -/
structure Options where
  path : String
  builtins : Bool
  deriving DecidableEq, Repr

/-- Arguments that the command cannot make sense of. -/
inductive UsageError where
  | missingFile
  | unexpectedArgument (argument : String)
  deriving DecidableEq, Repr

/-- The lines that tell how the command is used. -/
def UsageError.lines (error : UsageError) : List String :=
  let usage := "Usage: lispcheck <file> [--no-builtins]"
  match error with
  | .missingFile => [usage]
  | .unexpectedArgument argument => ["Unexpected argument `" ++ argument ++ "`", usage]

/-- Reads the arguments after those that have given a path or left out the
built-in functions. -/
def parseFrom (path : Option String) (builtins : Bool) : List String → Except UsageError Options
  | [] =>
      match path with
      | some path => .ok ⟨path, builtins⟩
      | none => .error .missingFile
  | argument :: arguments =>
      if argument = "--no-builtins" then parseFrom path false arguments
      else
        match path with
        | none => parseFrom (some argument) builtins arguments
        | some _ => .error (.unexpectedArgument argument)

/-- Reads the arguments of the command. -/
def Options.parse (arguments : List String) : Except UsageError Options :=
  parseFrom none true arguments

/-- The name that reports call the file by. -/
def Options.file (options : Options) : String := (Path.lastName? options.path).getD options.path

/-! ## Source texts -/

/-- The text of bytes in UTF-8. -/
def textOf (bytes : ByteArray) : Except ReadFailure String :=
  match String.fromUTF8? bytes with
  | some text => .ok text
  | none => .error .notText

/-! ## Output -/

/-- The phases that are timed. -/
inductive Phase where
  | reading
  | checking
  | everything
  deriving DecidableEq, Repr

/-- The words in front of the time of a phase. -/
def Phase.label : Phase → String
  | .reading => "Parsed in "
  | .checking => "Type checked in "
  | .everything => "Total time: "

/-- A line of output: a text, or the time of a phase. -/
inductive Line where
  | text (content : String)
  | time (phase : Phase)
  deriving DecidableEq, Repr

/-- The text of a line, given the times. -/
def Line.render (times : Phase → String) : Line → String
  | .text content => content
  | .time phase => phase.label ++ times phase

/-- What the command prints, and its exit code. -/
structure Output where
  exitCode : Nat
  lines : List Line
  errors : List String
  deriving DecidableEq, Repr

/-- The output for arguments that make no sense. -/
def usageOutput (error : UsageError) : Output := ⟨2, [], error.lines⟩

/-- The output for a file that cannot be read. -/
def failureOutput (options : Options) (failure : ReadFailure) : Output :=
  ⟨1, [], ["Failed to read `" ++ options.path ++ "`: " ++ failure.message]⟩

/-- The output for an error in a source text, after some lines. -/
def errorOutput (options : Options) (source : String) (before : List Line) (error : Error) :
    Output :=
  ⟨1, before ++ (Report.render error source options.file).map .text, []⟩

/-! ## Phases -/

/-- Reads a program from the bytes of a file. -/
def read (options : Options) (contents : Except ReadFailure ByteArray) :
    Except Output (String × Expr) :=
  match contents.bind textOf with
  | .error failure => .error (failureOutput options failure)
  | .ok source =>
      match Expr.readProgram source (some options.file) with
      | .error error => .error (errorOutput options source [] error)
      | .ok program => .ok (source, program)

/-- Checks a program that has been read. -/
def check (options : Options) (source : String) (program : Expr) : Option Output :=
  let timed : List Line := [.time .reading, .time .checking]
  match (Session.initial options.builtins).typeOfProgram program with
  | none => none
  | some (.error error, _) => some (errorOutput options source timed error)
  | some (.ok type, session) =>
      some ⟨0, timed ++ [.text ("Program type: " ++ session.types.name type), .time .everything], []⟩

/-- Reads a program from the bytes of a file and checks it. -/
def run (options : Options) (contents : Except ReadFailure ByteArray) : Option Output :=
  match read options contents with
  | .error output => some output
  | .ok (source, program) => check options source program

/-- What the command prints for its arguments in a tree of files. -/
def runIn (tree : FileTree) (arguments : List String) : Option Output :=
  match Options.parse arguments with
  | .error error => some (usageOutput error)
  | .ok options => run options (tree.read options.path)

end TypedLisp.Command
