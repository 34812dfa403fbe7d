/-!
# Keywords

The words with a fixed role in a `CREATE TABLE` statement. `ROWID` and `STRICT` are not among
them: they are ordinary names that the end of a statement gives a meaning to.

## Main definitions

- `Keyword` — the keywords
- `Keyword.spelling` — the upper-case spelling
- `Keyword.ofWord?` — the keyword that a word spells, in any mixture of cases
- `Keyword.isReserved` — whether a keyword can never stand for a name
-/

namespace CreateTable

/-- A keyword of the statement. -/
inductive Keyword where
  | abort | action | as | asc | autoincrement | cascade | check | collate | conflict | constraint
  | create | default | deferrable | deferred | delete | desc | exists | fail | foreign | generated
  | «if» | ignore | immediate | index | initially | key | «match» | no | not | null | on | primary
  | references | replace | restrict | rollback | select | set | table | temp | temporary | trigger
  | unique | update | view | virtual | without
  deriving Repr, DecidableEq

namespace Keyword

/-- The upper-case spelling of a keyword. -/
def spelling : Keyword → String
  | abort => "ABORT"
  | action => "ACTION"
  | as => "AS"
  | asc => "ASC"
  | autoincrement => "AUTOINCREMENT"
  | cascade => "CASCADE"
  | check => "CHECK"
  | collate => "COLLATE"
  | conflict => "CONFLICT"
  | constraint => "CONSTRAINT"
  | create => "CREATE"
  | default => "DEFAULT"
  | deferrable => "DEFERRABLE"
  | deferred => "DEFERRED"
  | delete => "DELETE"
  | desc => "DESC"
  | .exists => "EXISTS"
  | fail => "FAIL"
  | foreign => "FOREIGN"
  | generated => "GENERATED"
  | «if» => "IF"
  | ignore => "IGNORE"
  | immediate => "IMMEDIATE"
  | index => "INDEX"
  | initially => "INITIALLY"
  | key => "KEY"
  | «match» => "MATCH"
  | no => "NO"
  | .not => "NOT"
  | null => "NULL"
  | on => "ON"
  | primary => "PRIMARY"
  | references => "REFERENCES"
  | replace => "REPLACE"
  | restrict => "RESTRICT"
  | rollback => "ROLLBACK"
  | select => "SELECT"
  | set => "SET"
  | table => "TABLE"
  | temp => "TEMP"
  | temporary => "TEMPORARY"
  | trigger => "TRIGGER"
  | unique => "UNIQUE"
  | update => "UPDATE"
  | view => "VIEW"
  | virtual => "VIRTUAL"
  | without => "WITHOUT"

/-- The keywords in alphabetical order. -/
def all : List Keyword :=
  [abort, action, as, asc, autoincrement, cascade, check, collate, conflict, constraint, create,
   default, deferrable, deferred, delete, desc, .exists, fail, foreign, generated, «if», ignore,
   immediate, index, initially, key, «match», no, .not, null, on, primary, references, replace,
   restrict, rollback, select, set, table, temp, temporary, trigger, unique, update, view, virtual,
   without]

theorem mem_all (k : Keyword) : k ∈ all := by
  cases k <;> decide

/-- The keyword that a word spells, if any. Only ASCII letters have two cases. -/
def ofWord? (word : List Char) : Option Keyword :=
  let upper := String.ofList (word.map Char.toUpper)
  all.find? fun k => k.spelling == upper

/-- Whether a keyword can never stand for a name unless quoted. The others may, wherever a name is
    due: `key`, `action` and `temp` are common column names. -/
def isReserved : Keyword → Bool
  | as | autoincrement | check | collate | constraint | create | default | deferrable | delete
  | .exists | foreign | index | .not | null | on | primary | references | select | set | table
  | unique | update => true
  | _ => false

end Keyword

end CreateTable
