import CreateTable.CommandLine.Program

/-!
# Main

The program on real files and streams.
-/

namespace CreateTable.CommandLine

/-- The bytes of an input: those of a file, or of the standard input. -/
def readBytes : Option String → IO ByteArray
  | some path => IO.FS.readBinFile path
  | none => do (← IO.getStdin).readBinToEnd

/-- Reads an input as text. A directory can be opened, and only reading from it fails: of two inputs
    of the wrong type it is the one without a path in the error. -/
def readInput (path : Option String) : IO (Except ReadError String) := do
  try
    match String.fromUTF8? (← readBytes path) with
    | some text => return .ok text
    | none => return .error .notText
  catch
    | .noFileOrDirectory .. => return .error .notFound
    | .inappropriateType none .. => return .error .isDirectory
    | .inappropriateType (some _) .. => return .error .notDirectory
    | .invalidArgument .. => return .error .nameTooLong
    | e => return .error (.other (toString e))

end CreateTable.CommandLine

/-- Runs the program. -/
def main (arguments : List String) : IO UInt32 := do
  let outcome ← CreateTable.CommandLine.run CreateTable.CommandLine.readInput arguments
  (← IO.getStdout).putStr outcome.output
  (← IO.getStderr).putStr outcome.errors
  return outcome.exitCode.toUInt32
