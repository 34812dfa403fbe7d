import CreateTable.Schema.Table

/-!
# Constraints on columns

A column constraint as it is written, and what it does to the column it is written on.

## Main definitions

- `ColumnConstraint` — one constraint on a column
- `Column.constrain` — a column with one more constraint on it

## Design notes

A column holds one constraint of each kind. A later one takes the place of an earlier one, with all
that belongs to it.
-/

namespace CreateTable

/-- A constraint on a column. -/
inductive ColumnConstraint where
  | primaryKey (order : SortOrder) (conflict : ConflictResolution) (autoincrement : Bool)
  | notNull (conflict : ConflictResolution)
  /-- Says nothing. -/
  | null
  | unique (conflict : ConflictResolution)
  | check (expression : String)
  | default (value : String)
  | collate (collation : String)
  | references (key : ForeignKey)
  deriving Repr, DecidableEq

/-- A column with one more constraint on it. -/
def Column.constrain (c : Column) : ColumnConstraint → Column
  | .primaryKey order conflict autoincrement =>
    { c with
      primaryKey := true
      primaryKeyOrder := order
      primaryKeyConflict := conflict
      autoincrement }
  | .notNull conflict => { c with notNull := true, notNullConflict := conflict }
  | .null => c
  | .unique conflict => { c with unique := true, uniqueConflict := conflict }
  | .check expression => { c with check := some expression }
  | .default value => { c with default := some value }
  | .collate collation => { c with collation := some collation }
  | .references key => { c with foreignKey := some key }

end CreateTable
