import CreateTable.Schema.Table

/-!
# Statements from tables

The statement that declares a table, on one line and in a fixed form.

## Main definitions

- `Name.render` — a name as it is written in a statement
- `Table.render` — the statement of a table
- `Column.render`, `TableConstraint.render`, … — its parts

## Design notes

The clauses of a part are separated by one space, and the items of a list by a comma and a space.
Types, sizes and expressions are written as they are.
-/

namespace CreateTable

-- ════════════════════════════════════════════════════════════════════════
-- Names
-- ════════════════════════════════════════════════════════════════════════

namespace Name

/-- Whether a name can be written without quotes: it is an ASCII word and no keyword. -/
def isBare (name : String) : Bool :=
  match name.toList with
  | [] => false
  | c :: rest =>
    (c.isAlpha || c == '_') && (c :: rest).all (fun d => d.isAlphanum || d == '_')
      && (Keyword.ofWord? (c :: rest)).isNone

/-- Text in double quotes, with each double quote inside written twice. -/
def quote (text : List Char) : List Char :=
  '\x22' :: (text.flatMap fun c => if c = '\x22' then ['\x22', '\x22'] else [c]) ++ ['\x22']

/-- A name in a statement. -/
def render (name : String) : String :=
  if isBare name then name else String.ofList (quote name.toList)

end Name

/-- Items with commas between. -/
def renderList (items : List String) : String := ", ".intercalate items

/-- Clauses with spaces between. -/
def renderClauses (clauses : List String) : String := " ".intercalate clauses

/-- The clause of a choice, left out if there is none. -/
def optionalClause (text : String) : List String :=
  if text = "" then [] else [text]

/-- A keyword and a name behind it, left out if there is no name. -/
def namedClause (word : String) : Option String → List String
  | some name => [word ++ " " ++ Name.render name]
  | none => []

-- ════════════════════════════════════════════════════════════════════════
-- Parts
-- ════════════════════════════════════════════════════════════════════════

/-- A column of a key. -/
def IndexedColumn.render (c : IndexedColumn) : String :=
  renderClauses
    (Name.render c.name :: namedClause "COLLATE" c.collation ++ optionalClause c.order.render)

namespace ForeignKey

/-- The table and columns referred to. -/
def renderTarget (k : ForeignKey) : String :=
  Name.render k.table ++
    if k.columns.isEmpty then "" else "(" ++ renderList (k.columns.map Name.render) ++ ")"

/-- An action on an event, left out if there is none. -/
def actionClause (event : String) : ReferentialAction → List String
  | .unspecified => []
  | action => ["ON " ++ event ++ " " ++ action.render]

/-- What a foreign key refers to. -/
def render (k : ForeignKey) : String :=
  renderClauses
    (("REFERENCES " ++ k.renderTarget)
      :: actionClause "DELETE" k.onDelete ++ actionClause "UPDATE" k.onUpdate
      ++ namedClause "MATCH" k.matchType ++ optionalClause k.deferral.render)

end ForeignKey

namespace Column

/-- The type, with the size behind it. A size alone is not written. -/
def typeClause (c : Column) : List String :=
  match c.type with
  | none => []
  | some type =>
    [type ++
      match c.length with
      | some length => "(" ++ length ++ ")"
      | none => ""]

/-- The primary key, with all that belongs to it. -/
def primaryKeyClause (c : Column) : List String :=
  if c.primaryKey then
    "PRIMARY KEY" :: optionalClause c.primaryKeyOrder.render
      ++ optionalClause c.primaryKeyConflict.render
      ++ (if c.autoincrement then ["AUTOINCREMENT"] else [])
  else []

/-- A constraint that only a conflict clause may follow, if it is there. -/
def flagClause (present : Bool) (words : String) (conflict : ConflictResolution) : List String :=
  if present then words :: optionalClause conflict.render else []

/-- A keyword and an expression in parentheses behind it, left out if there is no expression. -/
def expressionClause (word : String) : Option String → List String
  | some expression => [word ++ " (" ++ expression ++ ")"]
  | none => []

/-- The constraints of a column that have an effect. -/
def constraintClauses (c : Column) : List String :=
  c.primaryKeyClause
    ++ flagClause c.notNull "NOT NULL" c.notNullConflict
    ++ flagClause c.unique "UNIQUE" c.uniqueConflict
    ++ expressionClause "CHECK" c.check
    ++ expressionClause "DEFAULT" c.default
    ++ namedClause "COLLATE" c.collation
    ++ (c.foreignKey.map ForeignKey.render).toList

/-- A column. A constraint has to follow the name of one, and `NULL` is the one without effect. -/
def render (c : Column) : String :=
  renderClauses
    (Name.render c.name :: c.typeClause ++ namedClause "CONSTRAINT" c.constraintName
      ++ c.constraintClauses
      ++ (if c.constraintName.isSome && !c.hasConstraint then ["NULL"] else []))

end Column

namespace TableConstraint

/-- A key over columns. -/
def renderKey (words : String) (columns : List IndexedColumn) (conflict : ConflictResolution) :
    String :=
  renderClauses
    ((words ++ " (" ++ renderList (columns.map IndexedColumn.render) ++ ")")
      :: optionalClause conflict.render)

/-- What a constraint demands. -/
def Rule.render : Rule → String
  | .primaryKey columns conflict => renderKey "PRIMARY KEY" columns conflict
  | .unique columns conflict => renderKey "UNIQUE" columns conflict
  | .check expression => "CHECK (" ++ expression ++ ")"
  | .foreignKey columns target =>
    "FOREIGN KEY (" ++ renderList (columns.map Name.render) ++ ") " ++ target.render

/-- A table constraint. -/
def render (c : TableConstraint) : String :=
  renderClauses (namedClause "CONSTRAINT" c.name ++ [c.rule.render])

end TableConstraint

-- ════════════════════════════════════════════════════════════════════════
-- Statements
-- ════════════════════════════════════════════════════════════════════════

namespace Table

/-- The words up to the table name, without it. -/
def headClauses (t : Table) : List String :=
  "CREATE" :: (if t.temporary then ["TEMP"] else [])
    ++ "TABLE" :: (if t.ifNotExists then ["IF NOT EXISTS"] else [])

/-- The table name behind the schema and a point, if there is one. -/
def renderName (t : Table) : String :=
  match t.schema with
  | some schema => Name.render schema ++ "." ++ Name.render t.name
  | none => Name.render t.name

/-- Columns and constraints. -/
def renderBody (t : Table) : String :=
  renderList (t.columns.map Column.render)
    ++ String.join (t.constraints.map fun c => ", " ++ c.render)

/-- What stands behind the closing parenthesis. -/
def optionClauses (t : Table) : List String :=
  let options := (if t.withoutRowid then ["WITHOUT ROWID"] else [])
    ++ (if t.strict then ["STRICT"] else [])
  if options.isEmpty then [] else [renderList options]

/-- The statement that declares a table. -/
def render (t : Table) : String :=
  renderClauses (t.headClauses ++ t.renderName :: ("(" ++ t.renderBody ++ ")") :: t.optionClauses)

end Table

end CreateTable
