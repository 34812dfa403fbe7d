import CreateTable.Grammar.Name
import CreateTable.Schema.Table

/-!
# Foreign keys

What follows `REFERENCES`:
`name ['(' names ')'] {ON (DELETE | UPDATE) action | MATCH name} [[NOT] DEFERRABLE [INITIALLY mode]]`

## Main definitions

- `References.step` — reads what a foreign key refers to, and how
- `References.Result` — a foreign key, and a token that was read behind it

## Design notes

A `NOT` belongs to the clause only if `DEFERRABLE` follows. If something else does, the clause was
complete before the `NOT`, and hands it back. No other clause looks two tokens ahead.
-/

namespace CreateTable.Grammar.References

open Verdict

/-- An event that an action is for. -/
inductive Event where
  | delete | update
  deriving Repr, DecidableEq

/-- Sets the action for an event. A later action takes the place of an earlier one. -/
def setAction (key : ForeignKey) (event : Event) (action : ReferentialAction) : ForeignKey :=
  match event with
  | .delete => { key with onDelete := action }
  | .update => { key with onUpdate := action }

/-- Where a foreign key is. -/
inductive State where
  /-- The name of a table is due. -/
  | table
  /-- Behind the name of the table. -/
  | named (key : ForeignKey)
  /-- In the list of columns. -/
  | columns (key : ForeignKey) (names : NameList.State)
  /-- Between clauses. -/
  | clauses (key : ForeignKey)
  /-- `DELETE` or `UPDATE` is due. -/
  | event (key : ForeignKey)
  /-- An action is due. -/
  | action (key : ForeignKey) (event : Event)
  /-- `NULL` or `DEFAULT` is due behind `SET`. -/
  | set (key : ForeignKey) (event : Event)
  /-- `ACTION` is due behind `NO`. -/
  | no (key : ForeignKey) (event : Event)
  /-- The name of a match type is due. -/
  | matchType (key : ForeignKey)
  /-- Behind a `NOT`, which may belong to the clause or not. -/
  | not (key : ForeignKey) (word : Token)
  /-- Behind `DEFERRABLE`. -/
  | deferrable (key : ForeignKey) (negated : Bool)
  /-- A mode is due behind `INITIALLY`. -/
  | initially (key : ForeignKey) (negated : Bool)
  /-- The foreign key is read. -/
  | closed (key : ForeignKey)
  deriving Repr, DecidableEq

/-- A foreign key, and a `NOT` read behind it that belongs to something else. -/
structure Result where
  key : ForeignKey
  heldNot : Option Token := none
  deriving Repr, DecidableEq

/-- The verdict between clauses. -/
def betweenClauses (key : ForeignKey) (t : Token) : Verdict State Result :=
  match t.kind with
  | .keyword .on => .taken (.event key)
  | .keyword .match => .taken (.matchType key)
  | .keyword .not => .taken (.not key t)
  | .keyword .deferrable => .taken (.deferrable key false)
  | _ => .complete { key }

/-- The verdict on a token of a foreign key. -/
def step : State → Token → Verdict State Result
  | .table, t => takeName t .referencedTable fun table => .named { table }
  | .named key, t =>
    match t.kind with
    | .leftParen => .taken (.columns key (.name []))
    | _ => betweenClauses key t
  | .columns key names, t =>
    (NameList.step .referencedColumn .closeAfterReferenced names t).andThen (.columns key)
      fun columns => betweenClauses { key with columns } t
  | .clauses key, t => betweenClauses key t
  | .event key, t =>
    match t.kind with
    | .keyword .delete => .taken (.action key .delete)
    | .keyword .update => .taken (.action key .update)
    | _ => t.refuse .deleteOrUpdate
  | .action key event, t =>
    match t.kind with
    | .keyword .set => .taken (.set key event)
    | .keyword .cascade => .taken (.clauses (setAction key event .cascade))
    | .keyword .restrict => .taken (.clauses (setAction key event .restrict))
    | .keyword .no => .taken (.no key event)
    | _ => t.refuse .action
  | .set key event, t =>
    match t.kind with
    | .keyword .null => .taken (.clauses (setAction key event .setNull))
    | .keyword .default => .taken (.clauses (setAction key event .setDefault))
    | _ => t.refuse .nullOrDefaultAfterSet
  | .no key event, t =>
    takeKeyword t .action .actionAfterNo (.clauses (setAction key event .noAction))
  | .matchType key, t =>
    takeName t .matchType fun name => .clauses { key with matchType := some name }
  | .not key word, t =>
    match t.kind with
    | .keyword .deferrable => .taken (.deferrable key true)
    | _ => .complete { key, heldNot := some word }
  | .deferrable key negated, t =>
    match t.kind with
    | .keyword .initially => .taken (.initially key negated)
    | _ => .complete { key := { key with deferral := .stated negated .unspecified } }
  | .initially key negated, t =>
    match t.kind with
    | .keyword .deferred => .taken (.closed { key with deferral := .stated negated .deferred })
    | .keyword .immediate => .taken (.closed { key with deferral := .stated negated .immediate })
    | _ => t.refuse .initialMode
  | .closed key, _ => .complete { key }

theorem betweenClauses_sparesEnd (key : ForeignKey) (t : Token) :
    (betweenClauses key t).SparesEnd t := by
  unfold betweenClauses
  split <;> simp [*]

theorem step_sparesEnd (s : State) (t : Token) : (step s t).SparesEnd t := by
  unfold step
  split
  · exact sparesEnd_takeName _ _ _
  · split
    · simp [*]
    · exact betweenClauses_sparesEnd _ _
  · exact (NameList.step_sparesEnd _ _ _ _).andThen fun _ => betweenClauses_sparesEnd _ _
  · exact betweenClauses_sparesEnd _ _
  · split <;> simp [*]
  · split <;> simp [*]
  · split <;> simp [*]
  · exact sparesEnd_takeKeyword _ _ _ _
  · exact sparesEnd_takeName _ _ _
  · split <;> simp [*]
  · split <;> simp [*]
  · split <;> simp [*]
  · simp

end CreateTable.Grammar.References
