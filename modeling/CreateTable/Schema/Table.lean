import CreateTable.Schema.Clause

/-!
# Tables

The model of a table, as a statement declares it. Names are held unquoted; types, sizes, checks and
defaults are held as they were written.

## Main definitions

- `Table`, `Column`, `TableConstraint` — a table and its parts
- `ForeignKey`, `IndexedColumn` — parts of constraints

## Design notes

A model may hold more than any statement declares, such as an order for a key that is none: models
are also built by hand. Columns, constraints and names in lists stand in the order of declaration.
-/

namespace CreateTable

/-- A column of a key. -/
structure IndexedColumn where
  name : String
  collation : Option String := none
  order : SortOrder := .unspecified
  deriving Repr, DecidableEq, Inhabited

/-- What a foreign key refers to, and how. -/
structure ForeignKey where
  /-- The table referred to. -/
  table : String
  /-- The columns referred to. Without any, the primary key of the table is meant. -/
  columns : List String := []
  onDelete : ReferentialAction := .unspecified
  onUpdate : ReferentialAction := .unspecified
  matchType : Option String := none
  deferral : Deferral := .unspecified
  deriving Repr, DecidableEq, Inhabited

/-- A column, with the constraints written on it. -/
structure Column where
  name : String
  /-- The words of the type. -/
  type : Option String := none
  /-- What stands in parentheses behind the type. -/
  length : Option String := none
  /-- The name of a constraint, the last one if there are several. -/
  constraintName : Option String := none
  primaryKey : Bool := false
  autoincrement : Bool := false
  notNull : Bool := false
  unique : Bool := false
  primaryKeyOrder : SortOrder := .unspecified
  primaryKeyConflict : ConflictResolution := .unspecified
  notNullConflict : ConflictResolution := .unspecified
  uniqueConflict : ConflictResolution := .unspecified
  /-- The expression that has to hold. -/
  check : Option String := none
  /-- The literal or expression that stands for a missing value. -/
  default : Option String := none
  collation : Option String := none
  foreignKey : Option ForeignKey := none
  deriving Repr, DecidableEq, Inhabited

/-- Whether some constraint on a column has an effect. -/
def Column.hasConstraint (c : Column) : Bool :=
  c.primaryKey || c.notNull || c.unique || c.check.isSome || c.default.isSome
    || c.collation.isSome || c.foreignKey.isSome

/-- What a table constraint demands. -/
inductive TableConstraint.Rule where
  | primaryKey (columns : List IndexedColumn) (conflict : ConflictResolution)
  | unique (columns : List IndexedColumn) (conflict : ConflictResolution)
  /-- An expression holds. -/
  | check (expression : String)
  /-- The columns refer to a row of another table. -/
  | foreignKey (columns : List String) (target : ForeignKey)
  deriving Repr, DecidableEq

/-- A constraint on a table. -/
structure TableConstraint where
  name : Option String
  rule : TableConstraint.Rule
  deriving Repr, DecidableEq

namespace TableConstraint

/-- The kind of a constraint. -/
def type (c : TableConstraint) : ConstraintType :=
  match c.rule with
  | .primaryKey .. => .primaryKey
  | .unique .. => .unique
  | .check _ => .check
  | .foreignKey .. => .foreignKey

/-- The columns of a primary or unique key, and none for other constraints. -/
def indexedColumns (c : TableConstraint) : List IndexedColumn :=
  match c.rule with
  | .primaryKey columns _ | .unique columns _ => columns
  | _ => []

/-- What a primary or unique key says about conflicts. -/
def conflict (c : TableConstraint) : ConflictResolution :=
  match c.rule with
  | .primaryKey _ conflict | .unique _ conflict => conflict
  | _ => .unspecified

/-- The expression of a check. -/
def check (c : TableConstraint) : Option String :=
  match c.rule with
  | .check expression => some expression
  | _ => none

/-- The columns of a foreign key, and none for other constraints. -/
def foreignKeyColumns (c : TableConstraint) : List String :=
  match c.rule with
  | .foreignKey columns _ => columns
  | _ => []

/-- What a foreign key refers to. -/
def foreignKey (c : TableConstraint) : Option ForeignKey :=
  match c.rule with
  | .foreignKey _ target => some target
  | _ => none

end TableConstraint

/-- A table. -/
structure Table where
  schema : Option String := none
  name : String := ""
  temporary : Bool := false
  ifNotExists : Bool := false
  withoutRowid : Bool := false
  strict : Bool := false
  columns : List Column := []
  constraints : List TableConstraint := []
  deriving Repr, DecidableEq, Inhabited

namespace Table

/-- The first column with a name. -/
def column? (t : Table) (name : String) : Option Column :=
  t.columns.find? fun c => c.name == name

/-- The name of a table behind the name of its schema, if it has one. -/
def qualifiedName (t : Table) : String :=
  match t.schema with
  | some schema => schema ++ "." ++ t.name
  | none => t.name

end Table

end CreateTable
