import CreateTable.Limits
import CreateTable.Text.Literal

/-!
# Arguments

What the arguments of the command line ask for.

## Main definitions

- `Arguments.parse` — the request that arguments make
- `Options` — an input, a form of output and limits
- `number?` — the number that an argument gives

## Design notes

An argument `-` is the standard input, which is also read if no file is named. Only a second
argument behind a named file is too many.
-/

namespace CreateTable.CommandLine

/-- The forms of output. -/
inductive OutputMode where
  /-- The statement in its fixed form. -/
  | sql
  /-- The model of the table. -/
  | json
  deriving Repr, DecidableEq

/-- What to read, what to write and which limits to keep. -/
structure Options where
  /-- The file to read, or none for the standard input. -/
  path : Option String := none
  mode : OutputMode := .sql
  limits : Limits := {}
  deriving Repr, DecidableEq

/-- What arguments ask for. -/
inductive Request where
  | help
  | run (options : Options)
  deriving Repr, DecidableEq

/-- What is wrong with arguments. -/
inductive ArgumentError where
  | missingValue (flag : String)
  | invalidNumber (flag value : String)
  | unknownOption (flag : String)
  | secondFile
  deriving Repr, DecidableEq

/-- The text of an argument error. -/
def ArgumentError.message : ArgumentError → String
  | missingValue flag => flag ++ " requires a value"
  | invalidNumber flag value => flag ++ " expects a number, got " ++ Text.literal value
  | unknownOption flag => "unknown option " ++ flag
  | secondFile => "only one input file may be given"

/-- The number that decimal digits give. -/
def ofDigits (digits : List Char) : Nat :=
  digits.foldl (fun n d => 10 * n + (d.toNat - '0'.toNat)) 0

/-- The number that an argument gives: ASCII digits, with or without a plus before them, for a
    number of 64 bits. -/
def number? (value : String) : Option Nat :=
  let digits :=
    match value.toList with
    | '+' :: digits => digits
    | digits => digits
  if digits.isEmpty ∨ ¬digits.all Char.isDigit then none
  else if ofDigits digits < UInt64.size then some (ofDigits digits)
  else none

/-- The option that a flag with a value sets. -/
inductive LimitFlag where
  | maxColumns | maxSqlLength
  deriving Repr, DecidableEq

namespace LimitFlag

/-- How a flag is written. -/
def spelling : LimitFlag → String
  | maxColumns => "--max-columns"
  | maxSqlLength => "--max-sql-length"

/-- The flag that an argument is. -/
def ofArgument? (argument : String) : Option LimitFlag :=
  [maxColumns, maxSqlLength].find? fun flag => flag.spelling == argument

/-- Options with a limit set. -/
def set (flag : LimitFlag) (n : Nat) (o : Options) : Options :=
  match flag with
  | maxColumns => { o with limits := { o.limits with maxColumns := n } }
  | maxSqlLength => { o with limits := { o.limits with maxSqlLength := n } }

end LimitFlag

namespace Arguments

/-- Reads on with the options found so far. -/
def parseFrom (o : Options) : List String → Except ArgumentError Request
  | [] => .ok (.run o)
  | argument :: rest =>
    if argument = "-h" ∨ argument = "--help" then .ok .help
    else if argument = "--json" then parseFrom { o with mode := .json } rest
    else
      match LimitFlag.ofArgument? argument, rest with
      | some flag, [] => .error (.missingValue flag.spelling)
      | some flag, value :: rest =>
        match number? value with
        | some n => parseFrom (flag.set n o) rest
        | none => .error (.invalidNumber flag.spelling value)
      | none, rest =>
        if argument.toList.head? = some '-' ∧ argument ≠ "-" then
          .error (.unknownOption argument)
        else if o.path.isSome then .error .secondFile
        else if argument = "-" then parseFrom o rest
        else parseFrom { o with path := some argument } rest

/-- The request that arguments make. What is wrong first is reported, and help is given at once. -/
def parse (arguments : List String) : Except ArgumentError Request :=
  parseFrom {} arguments

end Arguments

end CreateTable.CommandLine
