import CreateTable.Grammar.Statement
import CreateTable.Parser.Column
import CreateTable.Parser.TableConstraint

/-!
# Statements

The procedures for a statement, its body and its options.

## Main definitions

- `Parser.body` — what stands between the parentheses of a statement
- `Parser.options` — what stands behind them
- `Parser.createTable` — a text as one statement

## Main statements

- `Parser.createTable_ends` — reading a statement ends, and at the end of the text if it ends well
-/

namespace CreateTable.Parser

open Grammar Grammar.Body

-- ════════════════════════════════════════════════════════════════════════
-- Bodies
-- ════════════════════════════════════════════════════════════════════════

/-- One more item of a body. No column may follow a constraint. -/
def item (limits : Limits) (p : Progress) : Parser Progress := do
  let t ← current
  if startsTableConstraint t then
    return p.addConstraint (← tableConstraint limits)
  else if p.constraints.isEmpty then
    if p.room = 0 then
      failHere (.tooManyColumns limits.maxColumns)
    else
      return p.addColumn (← column limits)
  else
    refuse .tableConstraint

/-- Whether another item follows: behind a comma, or as a constraint behind another. -/
def itemFollows (p : Progress) : Parser Bool := do
  if ← eat .comma then
    return true
  else
    return !p.constraints.isEmpty && startsTableConstraint (← current)

/-- One more item of a body, unless the body is closed behind a comma. -/
def bodyTurn (limits : Limits) (p : Progress) : Parser (Progress ⊕ Progress) := do
  if (← current).kind = .rightParen ∧ ¬(p.columns.isEmpty ∧ p.constraints.isEmpty) then
    return .inr p
  else
    let p ← item limits p
    if ← itemFollows p then
      return .inl p
    else
      return .inr p

/-- The items of a body. That there is no column among them is found behind all of them, and
    reported where the body begins. -/
def body (limits : Limits) : Parser Items := do
  let first ← current
  let p ← loop (bodyTurn limits) (.start limits first)
  if p.columns.isEmpty then
    fail (first.error .noColumns)
  else
    return p.items

theorem item_spends (limits : Limits) (p : Progress) : Spends (item limits p) fun _ => True := by
  refine Spends.current.bind fun t => ?_
  split
  · exact (tableConstraint_spends limits).bind_total fun _ => .pure id
  · split
    · split
      · exact .failHere
      · exact (column_spends limits).bind_total fun _ => .pure id
    · exact .refuse

theorem itemFollows_total (p : Progress) : Total (itemFollows p) :=
  .eat_bind nofun (.pure id) (Spends.current.bind fun _ => .pure id)

theorem bodyTurn_spends (limits : Limits) (p : Progress) :
    Spends (bodyTurn limits p) (·.isLeft) := by
  refine Spends.current.bind fun t => ?_
  split
  · exact .pure nofun
  · refine (item_spends limits p).bind_total fun p => (itemFollows_total p).bind fun b => ?_
    split <;> exact .pure id

theorem body_total (limits : Limits) : Total (body limits) := by
  refine Spends.current.bind fun first => (Total.loop (bodyTurn_spends limits) _).bind fun p => ?_
  split
  · exact .fail
  · exact .pure id

-- ════════════════════════════════════════════════════════════════════════
-- Options
-- ════════════════════════════════════════════════════════════════════════

/-- What follows `WITHOUT`. -/
def rowid (table : Table) : Parser Table := do
  if (← current).isWord "ROWID" then
    let _ ← advance
    return { table with withoutRowid := true }
  else
    refuse .rowidAfterWithout

/-- An option. -/
def tableOption (table : Table) : Parser Table := do
  if ← eatKeyword .without then
    rowid table
  else if (← current).isBareWord "STRICT" then
    let _ ← advance
    return { table with strict := true }
  else
    refuse .tableOption

/-- One more option. -/
def optionTurn (table : Table) : Parser (Table ⊕ Table) := do
  let table ← tableOption table
  if ← eat .comma then
    return .inl table
  else
    return .inr table

/-- Whether a token begins an option. -/
def startsOption (t : Token) : Bool := t.isKeyword .without || t.isBareWord "STRICT"

/-- The options of a statement, if there are any. -/
def options (table : Table) : Parser Table := do
  if startsOption (← current) then
    loop optionTurn table
  else
    return table

theorem rowid_spends (table : Table) : Spends (rowid table) fun _ => True := by
  intro p
  refine .current ?_
  split
  · rename_i hword
    exact .advance_bind (Statement.kind_ne_endOfInput_of_isWord hword) fun _ => .pure id
  · exact Spends.refuse p

theorem tableOption_spends (table : Table) : Spends (tableOption table) fun _ => True := by
  refine .eatKeyword_bind (rowid_spends table).total fun p => .current ?_
  split
  · rename_i hword
    exact .advance_bind (fun hend => by simp [Token.isBareWord, hend] at hword) fun _ => .pure id
  · exact Spends.refuse p

theorem optionTurn_spends (table : Table) : Spends (optionTurn table) (·.isLeft) :=
  (tableOption_spends table).bind_total fun _ => .eat_bind nofun (.pure id) (.pure id)

theorem options_total (table : Table) : Total (options table) := by
  refine Spends.current.bind fun t => ?_
  split
  · exact Total.loop optionTurn_spends table
  · exact .pure id

-- ════════════════════════════════════════════════════════════════════════
-- Statements
-- ════════════════════════════════════════════════════════════════════════

/-- One more semicolon. -/
def semicolonTurn (_ : Unit) : Parser (Unit ⊕ Unit) := do
  if ← eat .semicolon then
    return .inl ()
  else
    return .inr ()

/-- The end of a statement. -/
def statementEnd : Parser Unit := do
  if ← eat .semicolon then
    loop semicolonTurn ()
    if (← current).isEnd then
      return ()
    else
      failHere .secondStatement
  else if (← current).isEnd then
    return ()
  else
    refuse .endOfStatement

/-- Whether a table is temporary. -/
def temporary : Parser Bool := do
  if ← eatKeyword .temp then
    return true
  else
    eatKeyword .temporary

/-- The word behind `CREATE`. -/
def tableWord : Parser Unit := do
  match (← current).kind with
  | .keyword word =>
    if Statement.createsOther word then
      failHere (.createsOther word)
    else
      let _ ← expectKeyword .table .table
  | _ => refuse .table

/-- Whether a table may exist already. -/
def ifNotExists : Parser Bool := do
  if ← eatKeyword .if then
    let _ ← expectKeyword .not .notAfterIf
    let _ ← expectKeyword .exists .existsAfterIfNot
    return true
  else
    return false

/-- The names of a schema and a table. -/
def qualifiedName : Parser (Option String × String) := do
  let first ← name .table
  if ← eat .dot then
    return (some first, ← name .table)
  else
    return (none, first)

/-- What opens a body. -/
def openBody : Parser Unit := do
  if (← current).isKeyword .as then
    failHere .asSelect
  else
    let _ ← expect .leftParen .openAfterTableName

/-- A text as one statement. -/
def createTable (limits : Limits) : Parser Table := do
  let _ ← expectKeyword .create .createTable
  let temporary ← temporary
  tableWord
  let ifNotExists ← ifNotExists
  let (schema, name) ← qualifiedName
  openBody
  let items ← body limits
  let _ ← expect .rightParen .commaOrClose
  let table ← options
    { schema, name, temporary, ifNotExists,
      columns := items.columns, constraints := items.constraints }
  statementEnd
  return table

theorem semicolonTurn_spends (b : Unit) : Spends (semicolonTurn b) (·.isLeft) :=
  .eat_bind nofun (.pure id) (.pure nofun)

/-- Behind a statement stands the end of the text. -/
theorem statementEnd_ends (p : Point) :
    Ends statementEnd p fun _ _ q => q.window.current.isEnd := by
  have heat : Total (eat .semicolon) := Spends.total (.eat nofun)
  refine heat.bind_ends (fun b p => ?_) p
  cases b with
  | true =>
    refine (Total.loop semicolonTurn_spends ()).bind_ends (fun _ p => .current ?_) p
    split
    · exact .pure ‹_›
    · exact .fail
  | false =>
    refine .current ?_
    split
    · exact .pure ‹_›
    · exact .fail

theorem statementEnd_total : Total statementEnd :=
  fun p => (statementEnd_ends p).mono fun _ _ _ _ => nofun

theorem temporary_total : Total temporary :=
  .eatKeyword_bind (.pure id) Spends.eatKeyword.total

theorem tableWord_total : Total tableWord := by
  refine Spends.current.bind fun t => ?_
  split
  · split
    · exact .failHere
    · exact .expectKeyword_bind fun _ => .pure id
  · exact .refuse

theorem ifNotExists_total : Total ifNotExists :=
  .eatKeyword_bind (.expectKeyword_bind fun _ => .expectKeyword_bind fun _ => .pure id) (.pure id)

theorem qualifiedName_total : Total qualifiedName :=
  (name_spends .table).bind_total fun _ =>
    .eat_bind nofun ((name_spends .table).bind_total fun _ => .pure id) (.pure id)

theorem openBody_total : Total openBody := by
  refine Spends.current.bind fun t => ?_
  split
  · exact .failHere
  · exact .expect_bind nofun fun _ => .pure id

/-- Reading a statement ends, and if it ends well, at the end of the text. -/
theorem createTable_ends (limits : Limits) (p : Point) :
    Ends (createTable limits) p fun _ _ q => q.window.current.isEnd := by
  have hcreate : Total (expectKeyword .create .createTable) := Spends.expectKeyword.total
  have hclose : Total (expect .rightParen .commaOrClose) := Spends.total (.expect nofun)
  exact hcreate.bind_ends (fun _ => temporary_total.bind_ends fun _ => tableWord_total.bind_ends
    fun _ => ifNotExists_total.bind_ends fun _ => qualifiedName_total.bind_ends fun _ =>
    openBody_total.bind_ends fun _ => (body_total limits).bind_ends fun _ => hclose.bind_ends
    fun _ => (options_total _).bind_ends fun _ p => (statementEnd_ends p).bind
    fun _ _ _ _ hend => .pure hend) p

/-- Reading a statement ends. -/
theorem createTable_total (limits : Limits) : Total (createTable limits) :=
  fun p => (createTable_ends limits p).mono fun _ _ _ _ => nofun

end CreateTable.Parser
