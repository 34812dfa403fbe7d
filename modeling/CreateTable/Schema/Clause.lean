import CreateTable.Keyword
import CreateTable.Schema.Enumerated

/-!
# Clauses of a schema

The choices that the clauses of a statement offer. Each has a value for a clause that is absent,
whose text is empty.

## Main definitions

- `ConflictResolution` — `ON CONFLICT …`
- `SortOrder` — `ASC` and `DESC`
- `ReferentialAction` — what `ON DELETE` and `ON UPDATE` do
- `Deferral` — `[NOT] DEFERRABLE [INITIALLY …]`
- `ConstraintType` — the kinds of table constraints
-/

namespace CreateTable

-- ════════════════════════════════════════════════════════════════════════
-- Conflicts
-- ════════════════════════════════════════════════════════════════════════

/-- What to do about a row that breaks a constraint. -/
inductive ConflictResolution where
  | unspecified | rollback | abort | fail | ignore | replace
  deriving Repr, DecidableEq, Inhabited

namespace ConflictResolution

/-- The text of the clause. -/
def render : ConflictResolution → String
  | unspecified => ""
  | rollback => "ON CONFLICT ROLLBACK"
  | abort => "ON CONFLICT ABORT"
  | fail => "ON CONFLICT FAIL"
  | ignore => "ON CONFLICT IGNORE"
  | replace => "ON CONFLICT REPLACE"

/-- The resolution that a keyword behind `ON CONFLICT` names. -/
def ofKeyword? : Keyword → Option ConflictResolution
  | .rollback => some rollback
  | .abort => some abort
  | .fail => some fail
  | .ignore => some ignore
  | .replace => some replace
  | _ => none

instance : Enumerated ConflictResolution where
  typeLabel := "ConflictClause"
  values := [unspecified, rollback, abort, fail, ignore, replace]
  label
    | unspecified => "None"
    | rollback => "Rollback"
    | abort => "Abort"
    | fail => "Fail"
    | ignore => "Ignore"
    | replace => "Replace"

end ConflictResolution

-- ════════════════════════════════════════════════════════════════════════
-- Order
-- ════════════════════════════════════════════════════════════════════════

/-- The direction in which a key is sorted. -/
inductive SortOrder where
  | unspecified | ascending | descending
  deriving Repr, DecidableEq, Inhabited

namespace SortOrder

/-- The text of the clause. -/
def render : SortOrder → String
  | unspecified => ""
  | ascending => "ASC"
  | descending => "DESC"

/-- The direction that a keyword names. -/
def ofKeyword? : Keyword → Option SortOrder
  | .asc => some ascending
  | .desc => some descending
  | _ => none

instance : Enumerated SortOrder where
  typeLabel := "OrderClause"
  values := [unspecified, ascending, descending]
  label
    | unspecified => "None"
    | ascending => "Asc"
    | descending => "Desc"

end SortOrder

-- ════════════════════════════════════════════════════════════════════════
-- Foreign keys
-- ════════════════════════════════════════════════════════════════════════

/-- What happens to a row when the row it refers to is deleted or changed. -/
inductive ReferentialAction where
  | unspecified | setNull | setDefault | cascade | restrict | noAction
  deriving Repr, DecidableEq, Inhabited

namespace ReferentialAction

/-- The text of the action. -/
def render : ReferentialAction → String
  | unspecified => ""
  | setNull => "SET NULL"
  | setDefault => "SET DEFAULT"
  | cascade => "CASCADE"
  | restrict => "RESTRICT"
  | noAction => "NO ACTION"

instance : Enumerated ReferentialAction where
  typeLabel := "ForeignKeyAction"
  values := [unspecified, setNull, setDefault, cascade, restrict, noAction]
  label
    | unspecified => "None"
    | setNull => "SetNull"
    | setDefault => "SetDefault"
    | cascade => "Cascade"
    | restrict => "Restrict"
    | noAction => "NoAction"

end ReferentialAction

/-- When a deferrable constraint is checked unless a transaction says otherwise. -/
inductive InitialMode where
  | unspecified | deferred | immediate
  deriving Repr, DecidableEq, Inhabited

/-- The text of the clause. -/
def InitialMode.render : InitialMode → String
  | unspecified => ""
  | deferred => "INITIALLY DEFERRED"
  | immediate => "INITIALLY IMMEDIATE"

/-- Whether the check of a foreign key may be put off to the end of a transaction. -/
inductive Deferral where
  | unspecified
  /-- `DEFERRABLE`, or `NOT DEFERRABLE` if negated, and the initial mode. -/
  | stated (negated : Bool) (initially : InitialMode)
  deriving Repr, DecidableEq, Inhabited

namespace Deferral

/-- The text of the clause. -/
def render : Deferral → String
  | unspecified => ""
  | stated negated initially =>
    (if negated then "NOT DEFERRABLE" else "DEFERRABLE") ++
      match initially with
      | .unspecified => ""
      | mode => " " ++ mode.render

instance : Enumerated Deferral where
  typeLabel := "ForeignKeyDeferrable"
  values :=
    [unspecified, stated false .unspecified, stated false .deferred, stated false .immediate,
     stated true .unspecified, stated true .deferred, stated true .immediate]
  label
    | unspecified => "None"
    | stated false .unspecified => "Deferrable"
    | stated false .deferred => "DeferrableInitiallyDeferred"
    | stated false .immediate => "DeferrableInitiallyImmediate"
    | stated true .unspecified => "NotDeferrable"
    | stated true .deferred => "NotDeferrableInitiallyDeferred"
    | stated true .immediate => "NotDeferrableInitiallyImmediate"

end Deferral

-- ════════════════════════════════════════════════════════════════════════
-- Table constraints
-- ════════════════════════════════════════════════════════════════════════

/-- The kinds of table constraints. -/
inductive ConstraintType where
  | primaryKey | unique | check | foreignKey
  deriving Repr, DecidableEq

namespace ConstraintType

instance : Enumerated ConstraintType where
  typeLabel := "TableConstraintType"
  values := [primaryKey, unique, check, foreignKey]
  label
    | primaryKey => "PrimaryKey"
    | unique => "Unique"
    | check => "Check"
    | foreignKey => "ForeignKey"

end ConstraintType

end CreateTable
