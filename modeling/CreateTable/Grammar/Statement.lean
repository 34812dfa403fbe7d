import CreateTable.Grammar.Body

/-!
# Statements

```text
CREATE [TEMP | TEMPORARY] TABLE [IF NOT EXISTS] name ['.' name] '(' body ')'
  [option {',' option}] {';'}
```

where an option is `WITHOUT ROWID` or `STRICT`.

## Main definitions

- `Statement.step` — reads a statement through the end of the text
- `statementReader` — reads a text as one statement

## Design notes

The reader tells what becomes of each token of a statement. `Parser.createTable` does the same on a
window.

`ROWID` and `STRICT` are names like others. Only here, and only `ROWID` if quoted, they are words
of the statement.
-/

namespace CreateTable.Grammar

open Verdict

namespace Statement

/-- Where a statement is. The table holds what is known of it so far. -/
inductive State where
  /-- `CREATE` is due. -/
  | start
  /-- Behind `CREATE`. -/
  | created
  /-- `TABLE` is due behind `TEMP`. -/
  | temporary
  /-- Behind `TABLE`. -/
  | table (table : Table)
  /-- `NOT` is due behind `IF`. -/
  | ifWord (table : Table)
  /-- `EXISTS` is due behind `IF NOT`. -/
  | ifNot (table : Table)
  /-- A name is due: that of the schema or of the table. -/
  | name (table : Table)
  /-- Behind the first name. -/
  | named (table : Table) (name : String)
  /-- The name of the table is due behind a point. -/
  | qualified (table : Table)
  /-- The body is due. -/
  | bodyOpen (table : Table)
  /-- In the body. -/
  | body (table : Table) (body : Body.State)
  /-- `ROWID` is due behind `WITHOUT`. -/
  | without (table : Table)
  /-- Behind an option. -/
  | optionEnd (table : Table)
  /-- An option is due behind a comma. -/
  | option (table : Table)
  /-- Behind a semicolon. -/
  | terminated (table : Table)
  deriving Repr, DecidableEq

/-- Whether a keyword behind `CREATE` begins a statement that creates something else. -/
def createsOther : Keyword → Bool
  | .virtual | .unique | .index | .view | .trigger => true
  | _ => false

/-- The verdict where `TABLE` is due. -/
def tableWord (table : Table) (t : Token) : Verdict State Table :=
  match t.kind with
  | .keyword .table => .taken (.table table)
  | .keyword word =>
    if createsOther word then .refused (t.error (.createsOther word)) else t.refuse .table
  | _ => t.refuse .table

/-- The verdict where the name of a schema or a table is due. -/
def firstName (table : Table) (t : Token) : Verdict State Table :=
  takeName t .table (.named table)

/-- The verdict behind the name of the table. -/
def afterName (table : Table) (t : Token) : Verdict State Table :=
  if t.isKeyword .as then .refused (t.error .asSelect)
  else takeKind t .leftParen .openAfterTableName (.body table .start)

/-- The verdict where the statement ends. -/
def finish (table : Table) (t : Token) : Verdict State Table :=
  match t.kind with
  | .semicolon => .taken (.terminated table)
  | .endOfInput => .complete table
  | _ => t.refuse .endOfStatement

/-- The verdict on a token that begins an option. Any other token is for `otherwise`. -/
def beginOption (table : Table) (t : Token) (otherwise : Verdict State Table) :
    Verdict State Table :=
  if t.isKeyword .without then .taken (.without table)
  else if t.isBareWord "STRICT" then .taken (.optionEnd { table with strict := true })
  else otherwise

/-- The verdict on a token of a statement. -/
def step (limits : Limits) : State → Token → Verdict State Table
  | .start, t => takeKeyword t .create .createTable .created
  | .created, t =>
    match t.kind with
    | .keyword .temp | .keyword .temporary => .taken .temporary
    | _ => tableWord {} t
  | .temporary, t => tableWord { temporary := true } t
  | .table table, t =>
    if t.isKeyword .if then .taken (.ifWord table) else firstName table t
  | .ifWord table, t => takeKeyword t .not .notAfterIf (.ifNot table)
  | .ifNot table, t =>
    takeKeyword t .exists .existsAfterIfNot (.name { table with ifNotExists := true })
  | .name table, t => firstName table t
  | .named table name, t =>
    if t.kind = .dot then .taken (.qualified { table with schema := some name })
    else afterName { table with name } t
  | .qualified table, t => takeName t .table fun name => .bodyOpen { table with name }
  | .bodyOpen table, t => afterName table t
  | .body table body, t =>
    (Body.step limits body t).andThen (.body table) fun items =>
      let table := { table with columns := items.columns, constraints := items.constraints }
      beginOption table t (finish table t)
  | .without table, t =>
    if t.isWord "ROWID" then .taken (.optionEnd { table with withoutRowid := true })
    else t.refuse .rowidAfterWithout
  | .optionEnd table, t =>
    if t.kind = .comma then .taken (.option table) else finish table t
  | .option table, t => beginOption table t (t.refuse .tableOption)
  | .terminated table, t =>
    match t.kind with
    | .semicolon => .taken (.terminated table)
    | .endOfInput => .complete table
    | _ => .refused (t.error .secondStatement)

theorem tableWord_sparesEnd (table : Table) (t : Token) : (tableWord table t).SparesEnd t := by
  unfold tableWord
  split
  · simp [*]
  · split <;> simp
  · simp

theorem afterName_sparesEnd (table : Table) (t : Token) : (afterName table t).SparesEnd t := by
  unfold afterName
  split
  · simp
  · exact sparesEnd_takeKind _ _ _ (by simp)

theorem finish_sparesEnd (table : Table) (t : Token) : (finish table t).SparesEnd t := by
  unfold finish
  split <;> simp [*]

theorem beginOption_sparesEnd (table : Table) {t : Token} {otherwise : Verdict State Table}
    (h : otherwise.SparesEnd t) : (beginOption table t otherwise).SparesEnd t := by
  unfold beginOption
  split
  · exact sparesEnd_taken.2 (Token.kind_ne_endOfInput_of_isKeyword ‹_›)
  · split
    · exact sparesEnd_taken.2 fun hend => by simp_all [Token.isBareWord]
    · exact h

theorem kind_ne_endOfInput_of_isWord {t : Token} {word : String} (h : t.isWord word) :
    t.kind ≠ .endOfInput := by
  intro hend
  simp [Token.isWord, Token.isBareWord, hend] at h

theorem step_sparesEnd (limits : Limits) (s : State) (t : Token) :
    (step limits s t).SparesEnd t := by
  unfold step
  split
  · exact sparesEnd_takeKeyword _ _ _ _
  · split
    · simp [*]
    · simp [*]
    · exact tableWord_sparesEnd _ _
  · exact tableWord_sparesEnd _ _
  · split
    · exact sparesEnd_taken.2 (Token.kind_ne_endOfInput_of_isKeyword ‹_›)
    · exact sparesEnd_takeName _ _ _
  · exact sparesEnd_takeKeyword _ _ _ _
  · exact sparesEnd_takeKeyword _ _ _ _
  · exact sparesEnd_takeName _ _ _
  · split
    · simp [*]
    · exact afterName_sparesEnd _ _
  · exact sparesEnd_takeName _ _ _
  · exact afterName_sparesEnd _ _
  · exact (Body.step_sparesEnd _ _ _).andThen fun _ =>
      beginOption_sparesEnd _ (finish_sparesEnd _ _)
  · split
    · exact sparesEnd_taken.2 (kind_ne_endOfInput_of_isWord ‹_›)
    · simp
  · split
    · simp [*]
    · exact finish_sparesEnd _ _
  · exact beginOption_sparesEnd _ (Token.sparesEnd_refuse _ _ _)
  · split <;> simp [*]

end Statement

/-- Reads a text as one statement. -/
def statementReader (limits : Limits) : Reader Statement.State Table where
  start := .start
  step := Statement.step limits
  step_sparesEnd := Statement.step_sparesEnd limits

end CreateTable.Grammar
