import CreateTable.Grammar.TableConstraint
import CreateTable.Parser.ForeignKey

/-!
# Table constraints

The procedures for the constraints on a table as a whole.

## Main definitions

- `Parser.indexedColumns` — the columns of a primary or unique key
- `Parser.rule` — what a constraint demands
- `Parser.tableConstraint` — a constraint
-/

namespace CreateTable.Parser

-- ════════════════════════════════════════════════════════════════════════
-- Columns of a key
-- ════════════════════════════════════════════════════════════════════════

/-- The collation of a column of a key, if it has one. -/
def collation : Parser (Option String) := do
  if ← eatKeyword .collate then
    return some (← name .collation)
  else
    return none

/-- One more column of a key, behind others that stand latest first. -/
def indexedColumnTurn (columns : List IndexedColumn) :
    Parser (List IndexedColumn ⊕ List IndexedColumn) := do
  let name ← name .column
  let collation ← collation
  let order ← order
  if ← eat .comma then
    return .inl ({ name, collation, order } :: columns)
  else
    return .inr ({ name, collation, order } :: columns).reverse

/-- The columns of a key. -/
def indexedColumns : Parser (List IndexedColumn) := do
  let _ ← expect .leftParen .openBeforeIndexed
  let columns ← loop indexedColumnTurn []
  let _ ← expect .rightParen .commaOrCloseAfterIndexed
  return columns

theorem collation_total : Total collation :=
  .eatKeyword_bind ((name_spends .collation).bind_total fun _ => .pure id) (.pure id)

theorem indexedColumnTurn_spends (columns : List IndexedColumn) :
    Spends (indexedColumnTurn columns) (·.isLeft) :=
  (name_spends .column).bind_total fun _ => collation_total.bind fun _ =>
    order_total.bind fun _ => .eat_bind nofun (.pure id) (.pure id)

theorem indexedColumns_total : Total indexedColumns :=
  .expect_bind nofun fun _ => (Total.loop indexedColumnTurn_spends []).bind fun _ =>
    .expect_bind nofun fun _ => .pure id

-- ════════════════════════════════════════════════════════════════════════
-- Constraints
-- ════════════════════════════════════════════════════════════════════════

/-- Whether a token begins a constraint on a table. -/
def startsTableConstraint (t : Token) : Bool :=
  match t.kind with
  | .keyword word =>
    match word with
    | .constraint | .primary | .unique | .check | .foreign => true
    | _ => false
  | _ => false

/-- The columns of a foreign key, and what they refer to. -/
def foreignKeyRule : Parser TableConstraint.Rule := do
  let _ ← expectKeyword .key .keyAfterForeign
  let _ ← expect .leftParen .openAfterForeignKey
  let columns ← nameList .column
  let _ ← expect .rightParen .closeAfterForeignKey
  let _ ← expectKeyword .references .references
  return .foreignKey columns (← foreignKey)

/-- What a constraint demands. The conflict clause of a check has no effect. -/
def rule (limits : Limits) : Parser TableConstraint.Rule := do
  if ← eatKeyword .primary then
    let _ ← expectKeyword .key .keyAfterPrimary
    let columns ← indexedColumns
    return .primaryKey columns (← conflictClause)
  else if ← eatKeyword .unique then
    let columns ← indexedColumns
    return .unique columns (← conflictClause)
  else if ← eatKeyword .check then
    let text ← expression limits
    let _ ← conflictClause
    return .check text
  else if ← eatKeyword .foreign then
    foreignKeyRule
  else
    refuse .constraintKind

/-- The name of a constraint, if it has one. -/
def optionalName : Parser (Option String) := do
  if ← eatKeyword .constraint then
    return some (← name .constraint)
  else
    return none

/-- A constraint on a table. -/
def tableConstraint (limits : Limits) : Parser TableConstraint := do
  let name ← optionalName
  return { name, rule := ← rule limits }

theorem foreignKeyRule_total : Total foreignKeyRule :=
  .expectKeyword_bind fun _ => .expect_bind nofun fun _ => (nameList_total .column).bind fun _ =>
    .expect_bind nofun fun _ => .expectKeyword_bind fun _ =>
      foreignKey_spends.bind_total fun _ => .pure id

theorem rule_spends (limits : Limits) : Spends (rule limits) fun _ => True := by
  refine .eatKeyword_bind ?_ <| .eatKeyword_bind ?_ <| .eatKeyword_bind ?_ <|
    .eatKeyword_bind foreignKeyRule_total .refuse
  · exact .expectKeyword_bind fun _ => indexedColumns_total.bind fun _ =>
      conflictClause_total.bind fun _ => .pure id
  · exact indexedColumns_total.bind fun _ => conflictClause_total.bind fun _ => .pure id
  · exact (expression_spends limits).bind_total fun _ =>
      conflictClause_total.bind fun _ => .pure id

theorem optionalName_total : Total optionalName :=
  .eatKeyword_bind ((name_spends .constraint).bind_total fun _ => .pure id) (.pure id)

theorem tableConstraint_spends (limits : Limits) :
    Spends (tableConstraint limits) fun _ => True :=
  optionalName_total.bind fun _ => (rule_spends limits).bind_total fun _ => .pure id

end CreateTable.Parser
