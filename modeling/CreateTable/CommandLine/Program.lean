import CreateTable.CommandLine.Arguments
import CreateTable.Parse
import CreateTable.Schema.Json
import CreateTable.Schema.Render

/-!
# The program

From arguments and an input to an exit code and two texts.

## Main definitions

- `run` — what the program does
- `Outcome` — what it leaves behind
- `usage` — how it is called

## Design notes

Reading is left to the caller, who may do it in any monad. All else is pure.
-/

namespace CreateTable.CommandLine

/-- What the program leaves behind. -/
structure Outcome where
  exitCode : Nat
  /-- The text on the standard output. -/
  output : String
  /-- The text on the standard error. -/
  errors : String
  deriving Repr, DecidableEq

/-- Why an input cannot be read. -/
inductive ReadError where
  | notFound
  | isDirectory
  /-- The path leads through something that is no directory. -/
  | notDirectory
  | nameTooLong
  /-- The input is not UTF-8. -/
  | notText
  | other (message : String)
  deriving Repr, DecidableEq

/-- The text of a read error. -/
def ReadError.message : ReadError → String
  | notFound => "No such file or directory (os error 2)"
  | isDirectory => "Is a directory (os error 21)"
  | notDirectory => "Not a directory (os error 20)"
  | nameTooLong => "File name too long (os error 36)"
  | notText => "stream did not contain valid UTF-8"
  | other message => message

/-- How the program is called. -/
def usage : String :=
  "usage: sql3parse [--json] [--max-columns N] [--max-sql-length N] [FILE]\n\n" ++
  "Parses one SQLite CREATE TABLE statement from FILE (or stdin) and prints the\n" ++
  "normalized statement, or the parsed model as JSON with --json."

/-- Lines on the standard output. -/
def succeed (text : String) : Outcome :=
  { exitCode := 0, output := text ++ "\n", errors := "" }

/-- Lines on the standard error, the first one marked as an error. -/
def failWith (exitCode : Nat) (text : String) : Outcome :=
  { exitCode, output := "", errors := "Error: " ++ text ++ "\n" }

/-- The text of a table. -/
def OutputMode.show (mode : OutputMode) (t : Table) : String :=
  match mode with
  | .sql => t.render
  | .json => Json.pretty t.toJson

/-- What the program makes of an input. -/
def answer (o : Options) (sql : String) : Outcome :=
  match parse o.limits sql with
  | .ok t => succeed (o.mode.show t)
  | .error e => failWith 1 (e.diagnostic.render ++ "\n" ++ e.diagnostic.excerpt sql)

/-- What the program makes of an input that may not have been read. -/
def answerRead (o : Options) : Except ReadError String → Outcome
  | .ok sql => answer o sql
  | .error e =>
    failWith 1 ("unable to read " ++ o.path.getD "<stdin>" ++ ": " ++ e.message)

/-- What the program does: it reads an input only if the arguments ask for that. -/
def run {m : Type → Type} [Monad m] (read : Option String → m (Except ReadError String))
    (arguments : List String) : m Outcome :=
  match Arguments.parse arguments with
  | .error e => pure (failWith 2 (e.message ++ "\n\n" ++ usage))
  | .ok .help => pure (succeed usage)
  | .ok (.run o) => do return answerRead o (← read o.path)

end CreateTable.CommandLine
