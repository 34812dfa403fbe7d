import CreateTable.Grammar.ConflictClause
import CreateTable.Grammar.Expression
import CreateTable.Grammar.References
import CreateTable.Grammar.SignedNumber
import CreateTable.Grammar.SortClause
import CreateTable.Schema.ColumnConstraint

/-!
# Column constraints

```text
PRIMARY KEY [ASC | DESC] [conflict] [AUTOINCREMENT]
NOT NULL [conflict]
NULL [conflict]
UNIQUE [conflict]
CHECK expression
DEFAULT (expression | signed number | literal | word)
COLLATE name
REFERENCES foreign key
```

## Main definitions

- `ColumnConstraint.start?` — the state behind the first word of a constraint
- `ColumnConstraint.step` — reads the rest of it
- `ColumnConstraint.Result` — a constraint, and a token that was read behind it
-/

namespace CreateTable.Grammar.ColumnConstraint

open Verdict

/-- Where a column constraint is. -/
inductive State where
  /-- `KEY` is due behind `PRIMARY`. -/
  | key
  /-- Behind `PRIMARY KEY`. -/
  | order
  /-- In the conflict clause of a primary key. -/
  | keyConflict (order : SortOrder) (clause : ConflictClause.State)
  /-- `NULL` is due behind `NOT`. -/
  | null
  /-- In the conflict clause of `NOT NULL`. -/
  | notNull (clause : ConflictClause.State)
  /-- In the conflict clause of `NULL`. -/
  | nullable (clause : ConflictClause.State)
  /-- In the conflict clause of `UNIQUE`. -/
  | unique (clause : ConflictClause.State)
  /-- In the expression of a check. -/
  | check (expression : Expression.State)
  /-- A value is due behind `DEFAULT`. -/
  | default
  /-- In a number that is a default. -/
  | number (number : SignedNumber.State)
  /-- In an expression that is a default. -/
  | expression (expression : Expression.State)
  /-- The name of a collation is due. -/
  | collation
  /-- In a foreign key. -/
  | references (key : References.State)
  /-- The constraint is read. -/
  | closed (constraint : ColumnConstraint)
  deriving Repr, DecidableEq

/-- A constraint, and a `NOT` read behind it that belongs to something else. -/
structure Result where
  constraint : ColumnConstraint
  heldNot : Option Token := none
  deriving Repr, DecidableEq

/-- The state behind the first word of a constraint. -/
def start? : Keyword → Option State
  | .primary => some .key
  | .not => some .null
  | .null => some (.nullable .start)
  | .unique => some (.unique .start)
  | .check => some (.check .opening)
  | .default => some .default
  | .collate => some .collation
  | .references => some (.references .table)
  | _ => none

/-- Whether a token is a whole default: a literal, a name or `NULL`. -/
def isLiteral (t : Token) : Bool :=
  t.kind == .number || t.kind == .blob || t.isKeyword .null || t.name?.isSome

/-- The verdict in the conflict clause of a primary key. -/
def keyConflict (order : SortOrder) (clause : ConflictClause.State) (t : Token) :
    Verdict State Result :=
  (ConflictClause.step clause t).andThen (.keyConflict order) fun conflict =>
    if t.isKeyword .autoincrement then .taken (.closed (.primaryKey order conflict true))
    else .complete { constraint := .primaryKey order conflict false }

/-- The verdict on the first token of a default. -/
def default (t : Token) : Verdict State Result :=
  match t.kind with
  | .leftParen => .taken (.expression (.inside 0 []))
  | .operator =>
    (SignedNumber.step .defaultValue .start t).andThen .number fun tokens =>
      .complete { constraint := .default (Token.verbatim tokens) }
  | _ => if isLiteral t then .taken (.closed (.default t.source)) else t.refuse .defaultValue

/-- The verdict on a token of a constraint. -/
def step (limits : Limits) : State → Token → Verdict State Result
  | .key, t => takeKeyword t .key .keyAfterPrimary .order
  | .order, t =>
    match t.sortOrder? with
    | some order => .taken (.keyConflict order .start)
    | none => keyConflict .unspecified .start t
  | .keyConflict order clause, t => keyConflict order clause t
  | .null, t => takeKeyword t .null .nullAfterNot (.notNull .start)
  | .notNull clause, t =>
    (ConflictClause.step clause t).andThen .notNull fun conflict =>
      .complete { constraint := .notNull conflict }
  | .nullable clause, t =>
    (ConflictClause.step clause t).andThen .nullable fun _ => .complete { constraint := .null }
  | .unique clause, t =>
    (ConflictClause.step clause t).andThen .unique fun conflict =>
      .complete { constraint := .unique conflict }
  | .check expression, t =>
    (Expression.step limits expression t).andThen .check fun text =>
      .complete { constraint := .check text }
  | .default, t => default t
  | .number number, t =>
    (SignedNumber.step .defaultValue number t).andThen .number fun tokens =>
      .complete { constraint := .default (Token.verbatim tokens) }
  | .expression expression, t =>
    (Expression.step limits expression t).andThen .expression fun text =>
      .complete { constraint := .default text }
  | .collation, t => takeName t .collation fun name => .closed (.collate name)
  | .references key, t =>
    (References.step key t).andThen .references fun r =>
      .complete { constraint := .references r.key, heldNot := r.heldNot }
  | .closed constraint, _ => .complete { constraint }

theorem keyConflict_sparesEnd (order : SortOrder) (clause : ConflictClause.State) (t : Token) :
    (keyConflict order clause t).SparesEnd t := by
  refine (ConflictClause.step_sparesEnd _ _).andThen fun _ => ?_
  split
  · exact sparesEnd_taken.2 (Token.kind_ne_endOfInput_of_isKeyword ‹_›)
  · simp

theorem kind_ne_endOfInput_of_isLiteral {t : Token} (h : isLiteral t) : t.kind ≠ .endOfInput := by
  intro hend
  simp [isLiteral, Token.isKeyword, Token.name?, hend] at h

theorem default_sparesEnd (t : Token) : (default t).SparesEnd t := by
  unfold default
  split
  · simp [*]
  · exact (SignedNumber.step_sparesEnd _ _ _).andThen fun _ => sparesEnd_complete _ _
  · split
    · exact sparesEnd_taken.2 (kind_ne_endOfInput_of_isLiteral ‹_›)
    · simp

theorem step_sparesEnd (limits : Limits) (s : State) (t : Token) :
    (step limits s t).SparesEnd t := by
  unfold step
  split
  · exact sparesEnd_takeKeyword _ _ _ _
  · split
    · exact sparesEnd_taken.2 (Token.kind_ne_endOfInput_of_sortOrder? ‹_›)
    · exact keyConflict_sparesEnd _ _ _
  · exact keyConflict_sparesEnd _ _ _
  · exact sparesEnd_takeKeyword _ _ _ _
  · exact (ConflictClause.step_sparesEnd _ _).andThen fun _ => sparesEnd_complete _ _
  · exact (ConflictClause.step_sparesEnd _ _).andThen fun _ => sparesEnd_complete _ _
  · exact (ConflictClause.step_sparesEnd _ _).andThen fun _ => sparesEnd_complete _ _
  · exact (Expression.step_sparesEnd _ _ _).andThen fun _ => sparesEnd_complete _ _
  · exact default_sparesEnd _
  · exact (SignedNumber.step_sparesEnd _ _ _).andThen fun _ => sparesEnd_complete _ _
  · exact (Expression.step_sparesEnd _ _ _).andThen fun _ => sparesEnd_complete _ _
  · exact sparesEnd_takeName _ _ _
  · exact (References.step_sparesEnd _ _).andThen fun _ => sparesEnd_complete _ _
  · simp

end CreateTable.Grammar.ColumnConstraint
