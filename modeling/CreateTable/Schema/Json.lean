import CreateTable.Json
import CreateTable.Schema.Table

/-!
# Tables as JSON

## Main definitions

- `Table.toJson` — a table as a JSON value
- `Column.toJson`, `TableConstraint.toJson`, … — its parts
-/

namespace CreateTable

open Json

namespace Json

/-- A text, or null. -/
def Value.ofOption (s : Option String) : Value :=
  match s with
  | some s => .string s
  | none => .null

/-- The label of a choice. -/
def Value.ofLabel {α : Type} [Enumerated α] (a : α) : Value := .string (Enumerated.label a)

/-- A list of texts. -/
def Value.ofStrings (items : List String) : Value := .list (items.map .string)

end Json

/-- A column of a key as an object. -/
def IndexedColumn.toJson (c : IndexedColumn) : Value :=
  .object
    [("name", .string c.name),
     ("collate", .ofOption c.collation),
     ("order", .ofLabel c.order)]

/-- A foreign key as an object. -/
def ForeignKey.toJson (k : ForeignKey) : Value :=
  .object
    [("table", .string k.table),
     ("columns", .ofStrings k.columns),
     ("on_delete", .ofLabel k.onDelete),
     ("on_update", .ofLabel k.onUpdate),
     ("match", .ofOption k.matchType),
     ("deferrable", .ofLabel k.deferral)]

/-- A column as an object, with a member for each of its fields. -/
def Column.toJson (c : Column) : Value :=
  .object
    [("name", .string c.name),
     ("type", .ofOption c.type),
     ("length", .ofOption c.length),
     ("constraint_name", .ofOption c.constraintName),
     ("primary_key", .bool c.primaryKey),
     ("autoincrement", .bool c.autoincrement),
     ("not_null", .bool c.notNull),
     ("unique", .bool c.unique),
     ("primary_key_order", .ofLabel c.primaryKeyOrder),
     ("primary_key_conflict", .ofLabel c.primaryKeyConflict),
     ("not_null_conflict", .ofLabel c.notNullConflict),
     ("unique_conflict", .ofLabel c.uniqueConflict),
     ("check", .ofOption c.check),
     ("default", .ofOption c.default),
     ("collate_name", .ofOption c.collation),
     ("foreign_key", match c.foreignKey with
       | some k => k.toJson
       | none => .null)]

namespace TableConstraint

/-- What a constraint demands, under the label of its kind. -/
def Rule.toJson : Rule → Value
  | .primaryKey columns conflict =>
    .object [("PrimaryKey", key columns conflict)]
  | .unique columns conflict =>
    .object [("Unique", key columns conflict)]
  | .check expression =>
    .object [("Check", .string expression)]
  | .foreignKey columns target =>
    .object
      [("ForeignKey", .object
        [("columns", .ofStrings columns),
         ("foreign_key", target.toJson)])]
where
  /-- A key over columns. -/
  key (columns : List IndexedColumn) (conflict : ConflictResolution) : Value :=
    .object
      [("columns", .list (columns.map IndexedColumn.toJson)),
       ("conflict", .ofLabel conflict)]

/-- A table constraint as an object. -/
def toJson (c : TableConstraint) : Value :=
  .object
    [("name", .ofOption c.name),
     ("kind", c.rule.toJson)]

end TableConstraint

/-- A table as an object. -/
def Table.toJson (t : Table) : Value :=
  .object
    [("schema", .ofOption t.schema),
     ("name", .string t.name),
     ("temporary", .bool t.temporary),
     ("if_not_exists", .bool t.ifNotExists),
     ("without_rowid", .bool t.withoutRowid),
     ("strict", .bool t.strict),
     ("columns", .list (t.columns.map Column.toJson)),
     ("table_constraints", .list (t.constraints.map TableConstraint.toJson))]

end CreateTable
