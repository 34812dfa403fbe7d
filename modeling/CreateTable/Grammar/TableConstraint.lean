import CreateTable.Grammar.ConflictClause
import CreateTable.Grammar.Expression
import CreateTable.Grammar.IndexedColumns
import CreateTable.Grammar.References

/-!
# Table constraints

`[CONSTRAINT name]` and one of

```text
PRIMARY KEY columns [conflict]
UNIQUE columns [conflict]
CHECK expression [conflict]
FOREIGN KEY '(' names ')' REFERENCES foreign key
```

## Main definitions

- `TableConstraint.start?` — the state behind the first word of a table constraint
- `TableConstraint.step` — reads the rest of it
- `TableConstraint.Result` — a table constraint, and a token that was read behind it

## Design notes

The conflict clause of a check is read and has no effect.
-/

namespace CreateTable.Grammar.TableConstraint

open Verdict

/-- The name of a constraint, if it has one. -/
abbrev OptionalName := Option String

/-- Where a table constraint is. -/
inductive State where
  /-- The name is due behind `CONSTRAINT`. -/
  | name
  /-- What the constraint demands is due behind its name. -/
  | named (name : String)
  /-- `KEY` is due behind `PRIMARY`. -/
  | primary (name : OptionalName)
  /-- In the columns of a primary key. -/
  | primaryColumns (name : OptionalName) (columns : IndexedColumns.State)
  /-- In the conflict clause of a primary key. -/
  | primaryConflict (name : OptionalName) (columns : List IndexedColumn)
      (clause : ConflictClause.State)
  /-- In the columns of a unique key. -/
  | uniqueColumns (name : OptionalName) (columns : IndexedColumns.State)
  /-- In the conflict clause of a unique key. -/
  | uniqueConflict (name : OptionalName) (columns : List IndexedColumn)
      (clause : ConflictClause.State)
  /-- In the expression of a check. -/
  | check (name : OptionalName) (expression : Expression.State)
  /-- In the conflict clause of a check. -/
  | checkConflict (name : OptionalName) (expression : String) (clause : ConflictClause.State)
  /-- `KEY` is due behind `FOREIGN`. -/
  | foreign (name : OptionalName)
  /-- The columns are due behind `FOREIGN KEY`. -/
  | foreignOpen (name : OptionalName)
  /-- In the columns of a foreign key. -/
  | foreignColumns (name : OptionalName) (columns : NameList.State)
  /-- In what a foreign key refers to. -/
  | references (name : OptionalName) (columns : List String) (key : References.State)
  deriving Repr, DecidableEq

/-- A table constraint, and a `NOT` read behind it that belongs to nothing. -/
structure Result where
  constraint : TableConstraint
  heldNot : Option Token := none
  deriving Repr, DecidableEq

/-- The state behind the word that says what a constraint demands. -/
def rule? (name : OptionalName) : Keyword → Option State
  | .primary => some (.primary name)
  | .unique => some (.uniqueColumns name .opening)
  | .check => some (.check name .opening)
  | .foreign => some (.foreign name)
  | _ => none

/-- The state behind a token that begins a table constraint. -/
def start? (t : Token) : Option State :=
  match t.kind with
  | .keyword .constraint => some .name
  | .keyword word => rule? none word
  | _ => none

/-- The verdict behind the name of a constraint. -/
def afterName (name : String) (t : Token) : Verdict State Result :=
  match t.kind with
  | .keyword word =>
    match rule? (some name) word with
    | some s => .taken s
    | none => t.refuse .constraintKind
  | _ => t.refuse .constraintKind

/-- The verdict in the conflict clause of a primary key. -/
def primaryConflict (name : OptionalName) (columns : List IndexedColumn)
    (clause : ConflictClause.State) (t : Token) : Verdict State Result :=
  (ConflictClause.step clause t).andThen (.primaryConflict name columns) fun conflict =>
    .complete { constraint := { name, rule := .primaryKey columns conflict } }

/-- The verdict in the conflict clause of a unique key. -/
def uniqueConflict (name : OptionalName) (columns : List IndexedColumn)
    (clause : ConflictClause.State) (t : Token) : Verdict State Result :=
  (ConflictClause.step clause t).andThen (.uniqueConflict name columns) fun conflict =>
    .complete { constraint := { name, rule := .unique columns conflict } }

/-- The verdict in the conflict clause of a check. -/
def checkConflict (name : OptionalName) (expression : String) (clause : ConflictClause.State)
    (t : Token) : Verdict State Result :=
  (ConflictClause.step clause t).andThen (.checkConflict name expression) fun _ =>
    .complete { constraint := { name, rule := .check expression } }

/-- The verdict on a token of a table constraint. -/
def step (limits : Limits) : State → Token → Verdict State Result
  | .name, t => takeName t .constraint .named
  | .named name, t => afterName name t
  | .primary name, t => takeKeyword t .key .keyAfterPrimary (.primaryColumns name .opening)
  | .primaryColumns name columns, t =>
    (IndexedColumns.step columns t).andThen (.primaryColumns name) fun columns =>
      primaryConflict name columns .start t
  | .primaryConflict name columns clause, t => primaryConflict name columns clause t
  | .uniqueColumns name columns, t =>
    (IndexedColumns.step columns t).andThen (.uniqueColumns name) fun columns =>
      uniqueConflict name columns .start t
  | .uniqueConflict name columns clause, t => uniqueConflict name columns clause t
  | .check name expression, t =>
    (Expression.step limits expression t).andThen (.check name) fun text =>
      checkConflict name text .start t
  | .checkConflict name text clause, t => checkConflict name text clause t
  | .foreign name, t => takeKeyword t .key .keyAfterForeign (.foreignOpen name)
  | .foreignOpen name, t =>
    takeKind t .leftParen .openAfterForeignKey (.foreignColumns name (.name []))
  | .foreignColumns name columns, t =>
    (NameList.step .column .closeAfterForeignKey columns t).andThen (.foreignColumns name)
      fun columns => takeKeyword t .references .references (.references name columns .table)
  | .references name columns key, t =>
    (References.step key t).andThen (.references name columns) fun r =>
      .complete
        { constraint := { name, rule := .foreignKey columns r.key }, heldNot := r.heldNot }

theorem kind_ne_endOfInput_of_start? {t : Token} {s : State} (h : start? t = some s) :
    t.kind ≠ .endOfInput := by
  intro hend
  simp [start?, hend] at h

theorem afterName_sparesEnd (name : String) (t : Token) : (afterName name t).SparesEnd t := by
  unfold afterName
  split
  · split <;> simp [*]
  · simp

theorem primaryConflict_sparesEnd (name : OptionalName) (columns : List IndexedColumn)
    (clause : ConflictClause.State) (t : Token) :
    (primaryConflict name columns clause t).SparesEnd t :=
  (ConflictClause.step_sparesEnd _ _).andThen fun _ => sparesEnd_complete _ _

theorem uniqueConflict_sparesEnd (name : OptionalName) (columns : List IndexedColumn)
    (clause : ConflictClause.State) (t : Token) :
    (uniqueConflict name columns clause t).SparesEnd t :=
  (ConflictClause.step_sparesEnd _ _).andThen fun _ => sparesEnd_complete _ _

theorem checkConflict_sparesEnd (name : OptionalName) (expression : String)
    (clause : ConflictClause.State) (t : Token) :
    (checkConflict name expression clause t).SparesEnd t :=
  (ConflictClause.step_sparesEnd _ _).andThen fun _ => sparesEnd_complete _ _

theorem step_sparesEnd (limits : Limits) (s : State) (t : Token) :
    (step limits s t).SparesEnd t := by
  unfold step
  split
  · exact sparesEnd_takeName _ _ _
  · exact afterName_sparesEnd _ _
  · exact sparesEnd_takeKeyword _ _ _ _
  · exact (IndexedColumns.step_sparesEnd _ _).andThen fun _ => primaryConflict_sparesEnd _ _ _ _
  · exact primaryConflict_sparesEnd _ _ _ _
  · exact (IndexedColumns.step_sparesEnd _ _).andThen fun _ => uniqueConflict_sparesEnd _ _ _ _
  · exact uniqueConflict_sparesEnd _ _ _ _
  · exact (Expression.step_sparesEnd _ _ _).andThen fun _ => checkConflict_sparesEnd _ _ _ _
  · exact checkConflict_sparesEnd _ _ _ _
  · exact sparesEnd_takeKeyword _ _ _ _
  · exact sparesEnd_takeKind _ _ _ (by simp)
  · exact (NameList.step_sparesEnd _ _ _ _).andThen fun _ => sparesEnd_takeKeyword _ _ _ _
  · exact (References.step_sparesEnd _ _).andThen fun _ => sparesEnd_complete _ _

end CreateTable.Grammar.TableConstraint
