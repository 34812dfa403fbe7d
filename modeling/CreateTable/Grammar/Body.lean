import CreateTable.Grammar.Column
import CreateTable.Grammar.TableConstraint

/-!
# Bodies

What stands between the parentheses of a statement:
`column {',' column} [',' constraint {[','] constraint}] [','] ')'`

## Main definitions

- `Body.step` — reads a body through its closing parenthesis
- `Body.Items` — what a body holds

## Design notes

A comma may stand before the closing parenthesis. Constraints may follow each other without a
comma, and no column may follow a constraint. That there is no column at all is found at the end,
and reported where the body begins.
-/

namespace CreateTable.Grammar.Body

open Verdict

/-- The items of a body. -/
structure Items where
  columns : List Column
  constraints : List TableConstraint
  deriving Repr, DecidableEq

/-- What is read of a body. -/
structure Progress where
  /-- The first token. -/
  first : Token
  /-- How many more columns the limit allows. -/
  room : Nat
  /-- The columns, latest first. -/
  columns : List Column
  /-- The constraints, latest first. -/
  constraints : List TableConstraint
  deriving Repr, DecidableEq

namespace Progress

/-- What is read before the first token is taken. -/
def start (limits : Limits) (t : Token) : Progress :=
  { first := t, room := limits.maxColumns, columns := [], constraints := [] }

/-- One more column. -/
def addColumn (p : Progress) (c : CreateTable.Column) : Progress :=
  { p with room := p.room - 1, columns := c :: p.columns }

/-- One more constraint. -/
def addConstraint (p : Progress) (c : CreateTable.TableConstraint) : Progress :=
  { p with constraints := c :: p.constraints }

/-- The items in the order of declaration. -/
def items (p : Progress) : Items :=
  { columns := p.columns.reverse, constraints := p.constraints.reverse }

end Progress

/-- Where a body is. -/
inductive State where
  /-- The first item is due. -/
  | start
  /-- An item or the end is due behind a comma. -/
  | item (progress : Progress)
  /-- In a column. -/
  | column (progress : Progress) (column : Column.State)
  /-- In a constraint. -/
  | constraint (progress : Progress) (constraint : TableConstraint.State)
  /-- The body is closed. -/
  | closed (items : Items)
  deriving Repr, DecidableEq

/-- A verdict behind all items, unless there is no column among them. -/
def requireColumn (p : Progress) (v : Verdict State Items) : Verdict State Items :=
  if p.columns.isEmpty then .refused (p.first.error .noColumns) else v

/-- The verdict where no item can follow. -/
def finish (p : Progress) (t : Token) : Verdict State Items :=
  requireColumn p (takeKind t .rightParen .commaOrClose (.closed p.items))

/-- The verdict on the first token of a column. -/
def beginColumn (limits : Limits) (p : Progress) (t : Token) : Verdict State Items :=
  if p.room = 0 then .refused (t.error (.tooManyColumns limits.maxColumns))
  else takeName t .column fun name => .column p (.ofName name)

/-- The verdict where an item is due. -/
def item (limits : Limits) (p : Progress) (t : Token) : Verdict State Items :=
  if t.kind = .rightParen ∧ ¬(p.columns.isEmpty ∧ p.constraints.isEmpty) then finish p t
  else
    match TableConstraint.start? t with
    | some s => .taken (.constraint p s)
    | none => if p.constraints.isEmpty then beginColumn limits p t else t.refuse .tableConstraint

/-- The verdict behind a column. -/
def afterColumn (p : Progress) (t : Token) : Verdict State Items :=
  if t.kind = .comma then .taken (.item p) else finish p t

/-- The verdict behind a constraint. -/
def afterConstraint (p : Progress) (t : Token) : Verdict State Items :=
  match TableConstraint.start? t with
  | some s => .taken (.constraint p s)
  | none => afterColumn p t

/-- The verdict on a token of a body. -/
def step (limits : Limits) : State → Token → Verdict State Items
  | .start, t => item limits (.start limits t) t
  | .item p, t => item limits p t
  | .column p column, t =>
    (Column.step limits column t).andThen (.column p) fun column =>
      afterColumn (p.addColumn column) t
  | .constraint p constraint, t =>
    (TableConstraint.step limits constraint t).andThen (.constraint p) fun r =>
      match r.heldNot with
      | none => afterConstraint (p.addConstraint r.constraint) t
      | some word => requireColumn (p.addConstraint r.constraint) (word.refuse .commaOrClose)
  | .closed items, _ => .complete items

theorem requireColumn_sparesEnd (p : Progress) {t : Token} {v : Verdict State Items}
    (h : v.SparesEnd t) : (requireColumn p v).SparesEnd t := by
  unfold requireColumn
  split
  · simp
  · exact h

theorem finish_sparesEnd (p : Progress) (t : Token) : (finish p t).SparesEnd t :=
  requireColumn_sparesEnd _ (sparesEnd_takeKind _ _ _ (by simp))

theorem beginColumn_sparesEnd (limits : Limits) (p : Progress) (t : Token) :
    (beginColumn limits p t).SparesEnd t := by
  unfold beginColumn
  split
  · simp
  · exact sparesEnd_takeName _ _ _

theorem item_sparesEnd (limits : Limits) (p : Progress) (t : Token) :
    (item limits p t).SparesEnd t := by
  unfold item
  split
  · exact finish_sparesEnd _ _
  · split
    · exact sparesEnd_taken.2 (TableConstraint.kind_ne_endOfInput_of_start? ‹_›)
    · split
      · exact beginColumn_sparesEnd _ _ _
      · simp

theorem afterColumn_sparesEnd (p : Progress) (t : Token) : (afterColumn p t).SparesEnd t := by
  unfold afterColumn
  split
  · simp [*]
  · exact finish_sparesEnd _ _

theorem afterConstraint_sparesEnd (p : Progress) (t : Token) :
    (afterConstraint p t).SparesEnd t := by
  unfold afterConstraint
  split
  · exact sparesEnd_taken.2 (TableConstraint.kind_ne_endOfInput_of_start? ‹_›)
  · exact afterColumn_sparesEnd _ _

theorem step_sparesEnd (limits : Limits) (s : State) (t : Token) :
    (step limits s t).SparesEnd t := by
  unfold step
  split
  · exact item_sparesEnd _ _ _
  · exact item_sparesEnd _ _ _
  · exact (Column.step_sparesEnd _ _ _).andThen fun _ => afterColumn_sparesEnd _ _
  · refine (TableConstraint.step_sparesEnd _ _ _).andThen fun _ => ?_
    split
    · exact afterConstraint_sparesEnd _ _
    · exact requireColumn_sparesEnd _ (Token.sparesEnd_refuse _ _ _)
  · simp

end CreateTable.Grammar.Body
