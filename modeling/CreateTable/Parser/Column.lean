import CreateTable.Grammar.Column
import CreateTable.Parser.ForeignKey

/-!
# Columns

The procedures for a column, its type and the constraints on it.

## Main definitions

- `Parser.columnType` — the type of a column, with its size
- `Parser.constraintRest?` — what follows the first word of a constraint on a column
- `Parser.columnConstraint` — one more constraint on a column
- `Parser.column` — a column
-/

namespace CreateTable.Parser

open Grammar

-- ════════════════════════════════════════════════════════════════════════
-- Types
-- ════════════════════════════════════════════════════════════════════════

/-- One more word of a type, behind others that stand latest first. -/
def typeTurn (words : List Token) : Parser (List Token ⊕ List Token) := do
  if (← current).isTypeWord then
    return .inl ((← advance) :: words)
  else
    return .inr words

/-- The tokens of a size behind its opening parenthesis. -/
def typeSize : Parser (List Token) := do
  let size ← signedNumber .typeSize
  let comma ← current
  if ← eat .comma then
    return size ++ comma :: (← signedNumber .typeScale)
  else
    return size

/-- The size of a type, if there is one. -/
def columnLength (column : Column) : Parser Column := do
  if ← eat .leftParen then
    let size ← typeSize
    let _ ← expect .rightParen .closeAfterTypeSize
    return { column with length := some (Token.verbatim size) }
  else
    return column

/-- The type of a column, if it has one. -/
def columnType (column : Column) : Parser Column := do
  if (← current).isTypeWord then
    let first ← advance
    let words ← loop typeTurn [first]
    columnLength { column with type := some (Token.verbatim words.reverse) }
  else
    return column

theorem typeTurn_spends (words : List Token) : Spends (typeTurn words) (·.isLeft) := by
  intro p
  refine .current ?_
  split
  · rename_i hword
    exact .advance_bind (Column.kind_ne_endOfInput_of_isTypeWord hword) fun _ => .pure id
  · exact Spends.pure nofun p

theorem typeSize_total : Total typeSize :=
  (signedNumber_spends .typeSize).bind_total fun _ => Spends.current.bind fun _ =>
    .eat_bind nofun ((signedNumber_spends .typeScale).bind_total fun _ => .pure id) (.pure id)

theorem columnLength_total (column : Column) : Total (columnLength column) :=
  .eat_bind nofun (typeSize_total.bind fun _ => .expect_bind nofun fun _ => .pure id) (.pure id)

theorem columnType_total (column : Column) : Total (columnType column) := by
  intro p
  refine .current ?_
  split
  · rename_i hword
    exact .advance_bind (Column.kind_ne_endOfInput_of_isTypeWord hword) fun first =>
      (Total.loop typeTurn_spends [first]).bind fun _ => columnLength_total _
  · exact Spends.pure id p

-- ════════════════════════════════════════════════════════════════════════
-- Constraints
-- ════════════════════════════════════════════════════════════════════════

/-- The value behind `DEFAULT`. -/
def default (limits : Limits) : Parser String := do
  let t ← current
  match t.kind with
  | .leftParen => expression limits
  | .operator => return Token.verbatim (← signedNumber .defaultValue)
  | _ =>
    if ColumnConstraint.isLiteral t then
      return (← advance).source
    else
      refuse .defaultValue

/-- What follows `PRIMARY`. -/
def primaryKey : Parser ColumnConstraint := do
  let _ ← expectKeyword .key .keyAfterPrimary
  let order ← order
  let conflict ← conflictClause
  return .primaryKey order conflict (← eatKeyword .autoincrement)

/-- What follows the first word of a constraint. -/
def constraintRest? (limits : Limits) : Keyword → Option (Parser ColumnConstraint)
  | .primary => some primaryKey
  | .not => some do
    let _ ← expectKeyword .null .nullAfterNot
    return .notNull (← conflictClause)
  | .null => some do
    let _ ← conflictClause
    return .null
  | .unique => some do return .unique (← conflictClause)
  | .check => some do return .check (← expression limits)
  | .default => some do return .default (← default limits)
  | .collate => some do return .collate (← name .collation)
  | .references => some do return .references (← foreignKey)
  | _ => none

/-- Whether a token begins a constraint on a column. -/
def startsColumnConstraint (t : Token) : Bool :=
  match t.kind with
  | .keyword word =>
    match word with
    | .primary | .not | .null | .unique | .check | .default | .collate | .references
    | .generated | .as => true
    | _ => false
  | _ => false

/-- The name of a constraint, if it has one. A constraint has to follow. -/
def constraintName (column : Column) : Parser Column := do
  if ← eatKeyword .constraint then
    let name ← name .constraint
    if startsColumnConstraint (← current) then
      return { column with constraintName := some name }
    else
      refuse .columnConstraint
  else
    return column

/-- What a constraint demands of a column, if one stands here. -/
def constraintRule (limits : Limits) (column : Column) : Parser (Column ⊕ Column) := do
  match (← current).kind with
  | .keyword .generated | .keyword .as => failHere .generatedColumn
  | .keyword word =>
    match constraintRest? limits word with
    | some rest =>
      let _ ← advance
      return .inl (column.constrain (← rest))
    | none => return .inr column
  | _ => return .inr column

/-- One more constraint on a column, if one stands here. -/
def columnConstraint (limits : Limits) (column : Column) : Parser (Column ⊕ Column) := do
  constraintRule limits (← constraintName column)

/-- A column. -/
def column (limits : Limits) : Parser Column := do
  let name ← name .column
  let column ← columnType { name }
  loop (columnConstraint limits) column

theorem default_total (limits : Limits) : Total (default limits) := by
  intro p
  refine .current ?_
  split
  · exact (expression_spends limits).total p
  · exact (signedNumber_spends .defaultValue).bind_total (fun _ => .pure id) p
  · split
    · rename_i hliteral
      exact .advance_bind (ColumnConstraint.kind_ne_endOfInput_of_isLiteral hliteral)
        fun _ => .pure id
    · exact Spends.refuse p

theorem primaryKey_total : Total primaryKey :=
  .expectKeyword_bind fun _ => order_total.bind fun _ => conflictClause_total.bind fun _ =>
    Spends.eatKeyword.total.bind fun _ => .pure id

theorem constraintRest?_total {limits : Limits} {word : Keyword} {rest : Parser ColumnConstraint}
    (h : constraintRest? limits word = some rest) : Total rest := by
  cases word <;> cases h
  case primary => exact primaryKey_total
  case not => exact .expectKeyword_bind fun _ => conflictClause_total.bind fun _ => .pure id
  case null => exact conflictClause_total.bind fun _ => .pure id
  case unique => exact conflictClause_total.bind fun _ => .pure id
  case check => exact (expression_spends limits).bind_total fun _ => .pure id
  case default => exact (default_total limits).bind fun _ => .pure id
  case collate => exact (name_spends .collation).bind_total fun _ => .pure id
  case references => exact foreignKey_spends.bind_total fun _ => .pure id

theorem constraintName_total (column : Column) : Total (constraintName column) := by
  refine .eatKeyword_bind ?_ (.pure id)
  refine (name_spends .constraint).bind_total fun _ => Spends.current.bind fun t => ?_
  split
  · exact .pure id
  · exact .refuse

theorem constraintRule_spends (limits : Limits) (column : Column) :
    Spends (constraintRule limits column) (·.isLeft) := by
  refine fun p => .current ?_
  split
  · exact Spends.failHere p
  · exact Spends.failHere p
  · split
    · rename_i hword _ rest hrest
      exact .advance_bind (by simp [hword])
        fun _ => (constraintRest?_total hrest).bind fun _ => .pure id
    · exact Spends.pure nofun p
  · exact Spends.pure nofun p

theorem columnConstraint_spends (limits : Limits) (column : Column) :
    Spends (columnConstraint limits column) (·.isLeft) :=
  (constraintName_total column).bind (constraintRule_spends limits)

theorem column_spends (limits : Limits) : Spends (column limits) fun _ => True :=
  (name_spends .column).bind_total fun name =>
    (columnType_total { name }).bind (Total.loop (columnConstraint_spends limits))

end CreateTable.Parser
