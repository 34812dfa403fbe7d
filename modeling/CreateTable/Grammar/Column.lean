import CreateTable.Grammar.ColumnConstraint

/-!
# Columns

`name {type word} ['(' signed number [',' signed number] ')'] {[CONSTRAINT name] constraint}`, where
only a type may have a size behind it.

## Main definitions

- `Column.State.ofName` — the state behind the name of a column
- `Column.step` — reads the rest of it
-/

namespace CreateTable.Grammar.Column

open Verdict

/-- Where a column is. -/
inductive State where
  /-- Behind the name and some words of the type, latest first. -/
  | type (column : Column) (words : List Token)
  /-- In the size of the type. -/
  | size (column : Column) (number : SignedNumber.State)
  /-- In the scale of the type, behind the size and a comma. -/
  | scale (column : Column) (size : List Token) (number : SignedNumber.State)
  /-- Between constraints. -/
  | constraints (column : Column)
  /-- The name of a constraint is due. -/
  | constraintName (column : Column)
  /-- A constraint is due behind its name. -/
  | named (column : Column)
  /-- In a constraint. -/
  | constraint (column : Column) (constraint : ColumnConstraint.State)
  deriving Repr, DecidableEq

/-- The state behind the name of a column. -/
def State.ofName (name : String) : State := .type { name } []

/-- The verdict on a token that begins a constraint. Any other token is for `otherwise`. -/
def beginConstraint (column : Column) (t : Token) (otherwise : Verdict State Column) :
    Verdict State Column :=
  match t.kind with
  | .keyword .generated | .keyword .as => .refused (t.error .generatedColumn)
  | .keyword word =>
    match ColumnConstraint.start? word with
    | some s => .taken (.constraint column s)
    | none => otherwise
  | _ => otherwise

/-- The verdict between constraints. -/
def betweenConstraints (column : Column) (t : Token) : Verdict State Column :=
  if t.isKeyword .constraint then .taken (.constraintName column)
  else beginConstraint column t (.complete column)

/-- The verdict behind the words of a type, latest first. -/
def afterType (column : Column) (words : List Token) (t : Token) : Verdict State Column :=
  if words.isEmpty then betweenConstraints column t
  else
    let column := { column with type := some (Token.verbatim words.reverse) }
    match t.kind with
    | .leftParen => .taken (.size column .start)
    | _ => betweenConstraints column t

/-- The verdict behind a size. -/
def afterSize (column : Column) (size : List Token) (t : Token) : Verdict State Column :=
  match t.kind with
  | .comma => .taken (.scale column (size ++ [t]) .start)
  | .rightParen => .taken (.constraints { column with length := some (Token.verbatim size) })
  | _ => t.refuse .closeAfterTypeSize

/-- The verdict behind a constraint. A `NOT` that was read behind it begins the next one. -/
def afterConstraint (column : Column) (r : ColumnConstraint.Result) (t : Token) :
    Verdict State Column :=
  let column := column.constrain r.constraint
  match r.heldNot with
  | none => betweenConstraints column t
  | some _ => takeKeyword t .null .nullAfterNot (.constraint column (.notNull .start))

/-- The verdict on a token of a column. -/
def step (limits : Limits) : State → Token → Verdict State Column
  | .type column words, t =>
    if t.isTypeWord then .taken (.type column (t :: words)) else afterType column words t
  | .size column number, t =>
    (SignedNumber.step .typeSize number t).andThen (.size column) fun size =>
      afterSize column size t
  | .scale column size number, t =>
    (SignedNumber.step .typeScale number t).andThen (.scale column size) fun scale =>
      takeKind t .rightParen .closeAfterTypeSize
        (.constraints { column with length := some (Token.verbatim (size ++ scale)) })
  | .constraints column, t => betweenConstraints column t
  | .constraintName column, t =>
    takeName t .constraint fun name => .named { column with constraintName := some name }
  | .named column, t => beginConstraint column t (t.refuse .columnConstraint)
  | .constraint column constraint, t =>
    (ColumnConstraint.step limits constraint t).andThen (.constraint column) fun r =>
      afterConstraint column r t

theorem beginConstraint_sparesEnd (column : Column) (t : Token) {otherwise : Verdict State Column}
    (h : otherwise.SparesEnd t) : (beginConstraint column t otherwise).SparesEnd t := by
  unfold beginConstraint
  split
  · simp
  · simp
  · split
    · simp [*]
    · exact h
  · exact h

theorem betweenConstraints_sparesEnd (column : Column) (t : Token) :
    (betweenConstraints column t).SparesEnd t := by
  unfold betweenConstraints
  split
  · exact sparesEnd_taken.2 (Token.kind_ne_endOfInput_of_isKeyword ‹_›)
  · exact beginConstraint_sparesEnd _ _ (sparesEnd_complete _ _)

theorem afterType_sparesEnd (column : Column) (words : List Token) (t : Token) :
    (afterType column words t).SparesEnd t := by
  unfold afterType
  split
  · exact betweenConstraints_sparesEnd _ _
  · dsimp only
    split
    · simp [*]
    · exact betweenConstraints_sparesEnd _ _

theorem afterSize_sparesEnd (column : Column) (size : List Token) (t : Token) :
    (afterSize column size t).SparesEnd t := by
  unfold afterSize
  split <;> simp [*]

theorem afterConstraint_sparesEnd (column : Column) (r : ColumnConstraint.Result) (t : Token) :
    (afterConstraint column r t).SparesEnd t := by
  unfold afterConstraint
  dsimp only
  split
  · exact betweenConstraints_sparesEnd _ _
  · exact sparesEnd_takeKeyword _ _ _ _

theorem kind_ne_endOfInput_of_isTypeWord {t : Token} (h : t.isTypeWord) :
    t.kind ≠ .endOfInput := by
  intro hend
  simp [Token.isTypeWord, Token.name?, hend] at h

theorem step_sparesEnd (limits : Limits) (s : State) (t : Token) :
    (step limits s t).SparesEnd t := by
  unfold step
  split
  · split
    · exact sparesEnd_taken.2 (kind_ne_endOfInput_of_isTypeWord ‹_›)
    · exact afterType_sparesEnd _ _ _
  · exact (SignedNumber.step_sparesEnd _ _ _).andThen fun _ => afterSize_sparesEnd _ _ _
  · exact (SignedNumber.step_sparesEnd _ _ _).andThen fun _ =>
      sparesEnd_takeKind _ _ _ (by simp)
  · exact betweenConstraints_sparesEnd _ _
  · exact sparesEnd_takeName _ _ _
  · exact beginConstraint_sparesEnd _ _ (Token.sparesEnd_refuse _ _ _)
  · exact (ColumnConstraint.step_sparesEnd _ _ _).andThen fun _ =>
      afterConstraint_sparesEnd _ _ _

end CreateTable.Grammar.Column
