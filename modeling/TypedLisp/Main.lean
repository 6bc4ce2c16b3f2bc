import TypedLisp.Command

/-!
# The program

Runs the command on the file system and the clock.
-/

set_option autoImplicit false

namespace TypedLisp.Command

/-- A duration in nanoseconds, in the greatest unit that it fills. -/
def durationText (nanoseconds : Nat) : String :=
  let inUnit (unit : Nat) (name : String) : String :=
    let places := unit.repr.length - 1
    let fraction := (nanoseconds % unit).repr.toList
    let padded := List.replicate (places - fraction.length) '0' ++ fraction
    let significant := (padded.reverse.dropWhile (· = '0')).reverse
    (nanoseconds / unit).repr ++
      (if significant.isEmpty then "" else "." ++ String.ofList significant) ++ name
  if 1000000000 ≤ nanoseconds then inUnit 1000000000 "s"
  else if 1000000 ≤ nanoseconds then inUnit 1000000 "ms"
  else if 1000 ≤ nanoseconds then inUnit 1000 "µs"
  else nanoseconds.repr ++ "ns"

/-- The number of an error of the file system, which some operations give with a
minus sign. -/
def errorNumber (code : UInt32) : UInt32 := if code < 0x80000000 then code else 0 - code

/-- The failure that an error of the file system stands for. -/
def failureOf (error : IO.Error) : ReadFailure :=
  match error with
  | .noFileOrDirectory .. => .notFound
  | .inappropriateType _ code _ => if errorNumber code = 20 then .notDirectory else .isDirectory
  | .invalidArgument _ code _ =>
      if errorNumber code = 36 then .nameTooLong else .other (toString error)
  | _ => .other (toString error)

/-- The bytes of a file. -/
def readContents (path : String) : IO (Except ReadFailure ByteArray) := do
  try
    return .ok (← IO.FS.readBinFile path)
  catch error => return .error (failureOf error)

/-- Prints an output and yields its exit code. -/
def printOutput (output : Output) (times : Phase → String) : IO UInt32 := do
  for line in output.lines do
    IO.println (line.render times)
  for line in output.errors do
    IO.eprintln line
  return output.exitCode.toUInt32

end TypedLisp.Command

open TypedLisp.Command in
/-- Runs the command. -/
def main (arguments : List String) : IO UInt32 := do
  match Options.parse arguments with
  | .error error => printOutput (usageOutput error) fun _ => ""
  | .ok options =>
      let start ← IO.monoNanosNow
      match read options (← readContents options.path) with
      | .error output => printOutput output fun _ => ""
      | .ok (source, program) =>
          let readAt ← IO.monoNanosNow
          match check options source program with
          | none =>
              IO.eprintln "The program is nested too deeply to be checked"
              return 1
          | some output =>
              let checkedAt ← IO.monoNanosNow
              printOutput output fun
                | .reading => durationText (readAt - start)
                | .checking => durationText (checkedAt - readAt)
                | .everything => durationText (checkedAt - start)
