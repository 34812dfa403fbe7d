import CreateTable.Diagnostic
import CreateTable.Lexical.Lexeme

/-!
# Parse errors

Why a text is not read as a statement, and where.

## Main definitions

- `Expectation` — what would have had to stand where something else stands
- `Cause` — why reading stopped
- `ParseError` — a cause at its place
- `ParseError.diagnostic` — what a user is told about it
-/

namespace CreateTable

/-- What a name is the name of. -/
inductive NameRole where
  | table | constraint | column | collation | referencedTable | referencedColumn | matchType
  deriving Repr, DecidableEq

/-- The text of a role. -/
def NameRole.label : NameRole → String
  | table => "table name"
  | constraint => "constraint name"
  | column => "column name"
  | collation => "collation name"
  | referencedTable => "referenced table name"
  | referencedColumn => "referenced column name"
  | matchType => "match type"

/-- What would have had to stand where something else stands. -/
inductive Expectation where
  | createTable
  | table
  | notAfterIf
  | existsAfterIfNot
  | name (role : NameRole)
  | openAfterTableName
  | tableConstraint
  | commaOrClose
  | rowidAfterWithout
  | tableOption
  | endOfStatement
  | constraintKind
  | keyAfterPrimary
  | keyAfterForeign
  | openAfterForeignKey
  | closeAfterForeignKey
  | references
  | openBeforeIndexed
  | commaOrCloseAfterIndexed
  | typeSize
  | typeScale
  | closeAfterTypeSize
  | columnConstraint
  | nullAfterNot
  | defaultValue
  | openParen
  | expression
  | conflictAfterOn
  | resolution
  | closeAfterReferenced
  | deleteOrUpdate
  | action
  | nullOrDefaultAfterSet
  | actionAfterNo
  | initialMode
  deriving Repr, DecidableEq

/-- The text of an expectation. -/
def Expectation.label : Expectation → String
  | createTable => "CREATE TABLE"
  | table => "TABLE"
  | notAfterIf => "NOT after IF"
  | existsAfterIfNot => "EXISTS after IF NOT"
  | name role => role.label
  | openAfterTableName => "'(' after table name"
  | tableConstraint =>
    "table constraint; column definitions must precede table constraints"
  | commaOrClose => "',' or ')'"
  | rowidAfterWithout => "ROWID after WITHOUT"
  | tableOption => "WITHOUT ROWID or STRICT"
  | endOfStatement => "end of statement"
  | constraintKind => "PRIMARY KEY, UNIQUE, CHECK or FOREIGN KEY"
  | keyAfterPrimary => "KEY after PRIMARY"
  | keyAfterForeign => "KEY after FOREIGN"
  | openAfterForeignKey => "'(' after FOREIGN KEY"
  | closeAfterForeignKey => "')' after foreign key columns"
  | references => "REFERENCES"
  | openBeforeIndexed => "'(' before indexed columns"
  | commaOrCloseAfterIndexed => "',' or ')' after indexed column"
  | typeSize => "type size"
  | typeScale => "type scale"
  | closeAfterTypeSize => "')' after type size"
  | columnConstraint => "column constraint after CONSTRAINT name"
  | nullAfterNot => "NULL after NOT"
  | defaultValue => "literal value after DEFAULT"
  | openParen => "'('"
  | expression => "expression"
  | conflictAfterOn => "CONFLICT after ON"
  | resolution => "ROLLBACK, ABORT, FAIL, IGNORE or REPLACE"
  | closeAfterReferenced => "')' after referenced columns"
  | deleteOrUpdate => "DELETE or UPDATE after ON"
  | action => "SET NULL, SET DEFAULT, CASCADE, RESTRICT or NO ACTION"
  | nullOrDefaultAfterSet => "NULL or DEFAULT after SET"
  | actionAfterNo => "ACTION after NO"
  | initialMode => "DEFERRED or IMMEDIATE after INITIALLY"

/-- Why reading stopped. -/
inductive Cause where
  /-- Some text is no token. -/
  | lexical (fault : Lexical.LexicalFault)
  /-- A token stands where another thing is due. -/
  | expected (what : Expectation)
  /-- The text ends where something is due. -/
  | expectedBeforeEnd (what : Expectation)
  /-- The text ends inside an expression. -/
  | unbalanced
  /-- A table has constraints and no columns. -/
  | noColumns
  /-- A statement has more bytes than allowed. -/
  | statementTooLong (bytes limit : Nat)
  /-- A table has more columns than allowed. -/
  | tooManyColumns (limit : Nat)
  /-- An expression nests parentheses deeper than allowed. -/
  | nestedTooDeep (limit : Nat)
  /-- Something other than a table is created. -/
  | createsOther (word : Keyword)
  /-- A table is created from a query. -/
  | asSelect
  /-- A column is computed from others. -/
  | generatedColumn
  /-- A second statement follows. -/
  | secondStatement
  deriving Repr, DecidableEq

namespace Cause

/-- The sort of failure that a cause is. -/
def kind : Cause → ErrorKind
  | lexical _ | expected _ | expectedBeforeEnd _ | unbalanced | noColumns => .malformed
  | statementTooLong .. | tooManyColumns _ | nestedTooDeep _ => .exhausted
  | createsOther _ | asSelect | generatedColumn | secondStatement => .unsupported

/-- The text of a cause. -/
def message : Cause → String
  | lexical fault => fault.message
  | expected what => "expected " ++ what.label
  | expectedBeforeEnd what => "expected " ++ what.label ++ ", found end of input"
  | unbalanced => "unbalanced parentheses, expected ')'"
  | noColumns => "a table must have at least one column"
  | statementTooLong bytes limit =>
    "statement is " ++ toString bytes ++ " bytes, limit is " ++ toString limit
  | tooManyColumns limit => "too many columns, limit is " ++ toString limit
  | nestedTooDeep limit => "expression nested deeper than " ++ toString limit
  | createsOther word => "only CREATE TABLE is supported, found CREATE " ++ word.spelling
  | asSelect => "CREATE TABLE ... AS SELECT is not supported"
  | generatedColumn => "generated columns are not supported"
  | secondStatement => "only a single statement can be parsed"

end Cause

/-- A cause at its place. -/
structure ParseError where
  cause : Cause
  /-- The byte offset where reading stopped. -/
  offset : Nat
  /-- The text that stands there, if any. -/
  token : Option String
  deriving Repr, DecidableEq

/-- What a user is told about a parse error. -/
def ParseError.diagnostic (e : ParseError) : Diagnostic :=
  { kind := e.cause.kind, offset := e.offset, token := e.token, message := e.cause.message }

namespace Token

/-- A cause found at a token. The end of the text has no text to name. -/
def error (t : Token) (cause : Cause) : ParseError :=
  { cause, offset := t.start, token := if t.text.isEmpty then none else some t.source }

/-- Something else is due where a token stands. -/
def unexpected (t : Token) (what : Expectation) : ParseError :=
  t.error (if t.isEnd then .expectedBeforeEnd what else .expected what)

end Token

end CreateTable
