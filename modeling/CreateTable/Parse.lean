import CreateTable.Parser.Statement

/-!
# Parsing

The table that a text declares.

## Main definitions

- `parse` — reads one `CREATE TABLE` statement
- `tooLong?` — the error of a text that is longer than allowed

## Design notes

The procedure for a statement is run on the window at the first token. That it ends is
`Parser.createTable_total`, so there always is a result.
-/

namespace CreateTable

/-- The error of a text with more bytes than allowed. It is placed at the last character boundary
    that the limit allows. -/
def tooLong? (limits : Limits) (sql : String) : Option ParseError :=
  if sql.utf8ByteSize ≤ limits.maxSqlLength then none
  else
    some
      { cause := .statementTooLong sql.utf8ByteSize limits.maxSqlLength
        offset := Text.byteLength (Text.splitAtByte limits.maxSqlLength sql.toList).1
        token := none }

/-- Reads a text as one statement. A text that is too long is not looked into. -/
def parse (limits : Limits) (sql : String) : Except ParseError Table :=
  match tooLong? limits sql with
  | some e => .error e
  | none =>
    match Lexical.Window.ofText? sql.toList with
    | .error e => .error e
    | .ok w => ((Parser.createTable limits).run (Parser.createTable_total limits) ⟨w, []⟩).1

end CreateTable
