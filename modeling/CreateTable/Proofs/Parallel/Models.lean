import CreateTable.Schema.ColumnConstraint
import Mathlib.Data.List.Forall2
import Mathlib.Data.Option.Defs

/-!
# Models of two texts

How a model found in one text goes with the model found in another one: names are spelled in
another way, texts that are held as they were written are related, and all else is the same.

## Main definitions

- `Table.mapText` — a table with every text in it replaced
- `Column.Corresponds`, `TableConstraint.Corresponds`, `Table.Corresponds` — models that go with
  each other
- `ColumnConstraint.Corresponds` — the same for one constraint on a column

## Main statements

- `Table.Corresponds.mono` — a weaker relation between the texts
- `Table.Corresponds.eq_mapText` — where the texts are replaced, as the names are, so is the table
-/

namespace CreateTable

-- ════════════════════════════════════════════════════════════════════════
-- Other texts in the same places
-- ════════════════════════════════════════════════════════════════════════

section

variable (f : String → String)

/-- A column of a key with other names. -/
def IndexedColumn.mapText (c : IndexedColumn) : IndexedColumn :=
  { c with name := f c.name, collation := c.collation.map f }

/-- A foreign key with other names. -/
def ForeignKey.mapText (key : ForeignKey) : ForeignKey :=
  { key with
    table := f key.table
    columns := key.columns.map f
    matchType := key.matchType.map f }

/-- A column with every text in it replaced. -/
def Column.mapText (c : Column) : Column :=
  { c with
    name := f c.name
    type := c.type.map f
    length := c.length.map f
    constraintName := c.constraintName.map f
    check := c.check.map f
    default := c.default.map f
    collation := c.collation.map f
    foreignKey := c.foreignKey.map (.mapText f) }

/-- What a table constraint demands, with every text in it replaced. -/
def TableConstraint.Rule.mapText : TableConstraint.Rule → TableConstraint.Rule
  | .primaryKey columns conflict => .primaryKey (columns.map (.mapText f)) conflict
  | .unique columns conflict => .unique (columns.map (.mapText f)) conflict
  | .check expression => .check (f expression)
  | .foreignKey columns target => .foreignKey (columns.map f) (target.mapText f)

/-- A table constraint with every text in it replaced. -/
def TableConstraint.mapText (c : TableConstraint) : TableConstraint :=
  { name := c.name.map f, rule := c.rule.mapText f }

/-- A table with every text in it replaced. -/
def Table.mapText (t : Table) : Table :=
  { t with
    schema := t.schema.map f
    name := f t.name
    columns := t.columns.map (.mapText f)
    constraints := t.constraints.map (.mapText f) }

end

-- ════════════════════════════════════════════════════════════════════════
-- Models that go with each other
-- ════════════════════════════════════════════════════════════════════════

/-- Constraints on a column that go with each other. -/
inductive ColumnConstraint.Corresponds (f : String → String) (P : String → String → Prop) :
    ColumnConstraint → ColumnConstraint → Prop
  | primaryKey (order : SortOrder) (conflict : ConflictResolution) (autoincrement : Bool) :
    Corresponds f P (.primaryKey order conflict autoincrement)
      (.primaryKey order conflict autoincrement)
  | notNull (conflict : ConflictResolution) : Corresponds f P (.notNull conflict) (.notNull conflict)
  | null : Corresponds f P .null .null
  | unique (conflict : ConflictResolution) : Corresponds f P (.unique conflict) (.unique conflict)
  | check {text text' : String} : P text text' → Corresponds f P (.check text) (.check text')
  | default {text text' : String} : P text text' → Corresponds f P (.default text) (.default text')
  | collate (name : String) : Corresponds f P (.collate name) (.collate (f name))
  | references (key : ForeignKey) : Corresponds f P (.references key) (.references (key.mapText f))

/-- Columns that go with each other: the names are spelled by `f`, the texts that are held as they
    were written are related by `P`, and all else is the same. -/
structure Column.Corresponds (f : String → String) (P : String → String → Prop) (c d : Column) :
    Prop where
  name : d.name = f c.name
  type : Option.Rel P c.type d.type
  length : Option.Rel P c.length d.length
  constraintName : d.constraintName = c.constraintName.map f
  primaryKey : d.primaryKey = c.primaryKey
  autoincrement : d.autoincrement = c.autoincrement
  notNull : d.notNull = c.notNull
  unique : d.unique = c.unique
  primaryKeyOrder : d.primaryKeyOrder = c.primaryKeyOrder
  primaryKeyConflict : d.primaryKeyConflict = c.primaryKeyConflict
  notNullConflict : d.notNullConflict = c.notNullConflict
  uniqueConflict : d.uniqueConflict = c.uniqueConflict
  check : Option.Rel P c.check d.check
  default : Option.Rel P c.default d.default
  collation : d.collation = c.collation.map f
  foreignKey : d.foreignKey = c.foreignKey.map (.mapText f)

/-- Demands that go with each other. -/
inductive TableConstraint.Rule.Corresponds (f : String → String) (P : String → String → Prop) :
    TableConstraint.Rule → TableConstraint.Rule → Prop
  | primaryKey (columns : List IndexedColumn) (conflict : ConflictResolution) :
    Corresponds f P (.primaryKey columns conflict)
      (.primaryKey (columns.map (.mapText f)) conflict)
  | unique (columns : List IndexedColumn) (conflict : ConflictResolution) :
    Corresponds f P (.unique columns conflict) (.unique (columns.map (.mapText f)) conflict)
  | check {text text' : String} : P text text' → Corresponds f P (.check text) (.check text')
  | foreignKey (columns : List String) (target : ForeignKey) :
    Corresponds f P (.foreignKey columns target)
      (.foreignKey (columns.map f) (target.mapText f))

/-- Table constraints that go with each other. -/
structure TableConstraint.Corresponds (f : String → String) (P : String → String → Prop)
    (c d : TableConstraint) : Prop where
  name : d.name = c.name.map f
  rule : c.rule.Corresponds f P d.rule

/-- Tables that go with each other: the names are spelled by `f`, the texts that are held as they
    were written are related by `P`, and all else is the same. -/
structure Table.Corresponds (f : String → String) (P : String → String → Prop) (t u : Table) :
    Prop where
  schema : u.schema = t.schema.map f
  name : u.name = f t.name
  temporary : u.temporary = t.temporary
  ifNotExists : u.ifNotExists = t.ifNotExists
  withoutRowid : u.withoutRowid = t.withoutRowid
  strict : u.strict = t.strict
  columns : List.Forall₂ (Column.Corresponds f P) t.columns u.columns
  constraints : List.Forall₂ (TableConstraint.Corresponds f P) t.constraints u.constraints

variable {f : String → String} {P Q : String → String → Prop}

-- ════════════════════════════════════════════════════════════════════════
-- Weaker relations
-- ════════════════════════════════════════════════════════════════════════

theorem rel_mono {o o' : Option String} (h : Option.Rel P o o') (hPQ : ∀ a b, P a b → Q a b) :
    Option.Rel Q o o' := by
  cases h with
  | none => exact .none
  | some hp => exact .some (hPQ _ _ hp)

theorem ColumnConstraint.Corresponds.mono {k k' : ColumnConstraint} (h : k.Corresponds f P k')
    (hPQ : ∀ a b, P a b → Q a b) : k.Corresponds f Q k' := by
  cases h with
  | primaryKey order conflict autoincrement => exact .primaryKey order conflict autoincrement
  | notNull conflict => exact .notNull conflict
  | null => exact .null
  | unique conflict => exact .unique conflict
  | check h => exact .check (hPQ _ _ h)
  | default h => exact .default (hPQ _ _ h)
  | collate name => exact .collate name
  | references key => exact .references key

theorem Column.Corresponds.mono {c d : Column} (h : c.Corresponds f P d)
    (hPQ : ∀ a b, P a b → Q a b) : c.Corresponds f Q d :=
  { h with
    type := rel_mono h.type hPQ
    length := rel_mono h.length hPQ
    check := rel_mono h.check hPQ
    default := rel_mono h.default hPQ }

theorem TableConstraint.Rule.Corresponds.mono {r r' : TableConstraint.Rule}
    (h : r.Corresponds f P r') (hPQ : ∀ a b, P a b → Q a b) : r.Corresponds f Q r' := by
  cases h with
  | primaryKey columns conflict => exact .primaryKey columns conflict
  | unique columns conflict => exact .unique columns conflict
  | check h => exact .check (hPQ _ _ h)
  | foreignKey columns target => exact .foreignKey columns target

theorem TableConstraint.Corresponds.mono {c d : TableConstraint} (h : c.Corresponds f P d)
    (hPQ : ∀ a b, P a b → Q a b) : c.Corresponds f Q d :=
  ⟨h.name, h.rule.mono hPQ⟩

theorem Table.Corresponds.mono {t u : Table} (h : t.Corresponds f P u)
    (hPQ : ∀ a b, P a b → Q a b) : t.Corresponds f Q u :=
  { h with
    columns := h.columns.imp fun _ _ hc => hc.mono hPQ
    constraints := h.constraints.imp fun _ _ hc => hc.mono hPQ }

-- ════════════════════════════════════════════════════════════════════════
-- Columns under construction
-- ════════════════════════════════════════════════════════════════════════

/-- Columns that are new go with each other. -/
theorem Column.Corresponds.ofName (name : String) :
    Column.Corresponds f P { name } { name := f name } :=
  ⟨rfl, .none, .none, rfl, rfl, rfl, rfl, rfl, rfl, rfl, rfl, rfl, .none, .none, rfl, rfl⟩

/-- One more constraint on either column. -/
theorem Column.Corresponds.constrain {c d : Column} {k k' : ColumnConstraint}
    (h : c.Corresponds f P d) (hk : k.Corresponds f P k') :
    (c.constrain k).Corresponds f P (d.constrain k') := by
  cases hk with
  | primaryKey order conflict autoincrement =>
    exact { h with
      primaryKey := rfl
      autoincrement := rfl
      primaryKeyOrder := rfl
      primaryKeyConflict := rfl }
  | notNull conflict => exact { h with notNull := rfl, notNullConflict := rfl }
  | null => exact h
  | unique conflict => exact { h with unique := rfl, uniqueConflict := rfl }
  | check hp => exact { h with check := .some hp }
  | default hp => exact { h with default := .some hp }
  | collate name => exact { h with collation := rfl }
  | references key => exact { h with foreignKey := rfl }

-- ════════════════════════════════════════════════════════════════════════
-- Texts that are replaced
-- ════════════════════════════════════════════════════════════════════════

theorem eq_map_of_rel {o o' : Option String} (h : Option.Rel (fun a b => b = f a) o o') :
    o' = o.map f := by
  cases h with
  | none => rfl
  | some hp => exact congrArg some hp

theorem eq_map_of_forall₂ {α β : Type} {g : α → β} {xs : List α} {ys : List β}
    (h : List.Forall₂ (fun x y => y = g x) xs ys) : ys = xs.map g := by
  have heq : List.Forall₂ Eq (xs.map g) ys := List.forall₂_map_left_iff.2 (h.imp fun _ _ => Eq.symm)
  rw [List.forall₂_eq_eq_eq] at heq
  exact heq.symm

theorem Column.Corresponds.eq_mapText {c d : Column}
    (h : c.Corresponds f (fun a b => b = f a) d) : d = c.mapText f := by
  cases d
  obtain ⟨hname, htype, hlength, hconstraint, hkey, hauto, hnull, hunique, horder, hkeyConflict,
    hnullConflict, huniqueConflict, hcheck, hdefault, hcollation, hforeign⟩ := h
  rw [Column.mapText, ← eq_map_of_rel htype, ← eq_map_of_rel hlength, ← eq_map_of_rel hcheck,
    ← eq_map_of_rel hdefault]
  simp only at *
  subst_vars
  rfl

theorem TableConstraint.Corresponds.eq_mapText {c d : TableConstraint}
    (h : c.Corresponds f (fun a b => b = f a) d) : d = c.mapText f := by
  obtain ⟨name, rule⟩ := c
  obtain ⟨name', rule'⟩ := d
  obtain ⟨rfl, hrule⟩ := h
  cases hrule with
  | primaryKey | unique | foreignKey => rfl
  | check hp =>
    obtain rfl := hp
    rfl

/-- Where the texts that are held as they were written are replaced as the names are, one table is
    the other with its texts replaced. -/
theorem Table.Corresponds.eq_mapText {t u : Table} (h : t.Corresponds f (fun a b => b = f a) u) :
    u = t.mapText f := by
  have hcolumns := eq_map_of_forall₂ (h.columns.imp fun _ _ hc => hc.eq_mapText)
  have hconstraints := eq_map_of_forall₂ (h.constraints.imp fun _ _ hc => hc.eq_mapText)
  obtain ⟨hschema, hname, htemporary, hif, hrowid, hstrict, -, -⟩ := h
  cases u
  rw [Table.mapText]
  simp only at *
  subst_vars
  rfl

-- ════════════════════════════════════════════════════════════════════════
-- Texts that stay
-- ════════════════════════════════════════════════════════════════════════

@[simp] theorem IndexedColumn.mapText_id : IndexedColumn.mapText id = id := by
  funext c
  simp [mapText]

@[simp] theorem ForeignKey.mapText_id : ForeignKey.mapText id = id := by
  funext key
  simp [mapText]

@[simp] theorem Column.mapText_id : Column.mapText id = id := by
  funext c
  simp [mapText]

@[simp] theorem TableConstraint.mapText_id : TableConstraint.mapText id = id := by
  funext c
  obtain ⟨name, rule⟩ := c
  cases rule <;> simp [mapText, Rule.mapText]

@[simp] theorem Table.mapText_id (t : Table) : t.mapText id = t := by
  simp [mapText]

end CreateTable
