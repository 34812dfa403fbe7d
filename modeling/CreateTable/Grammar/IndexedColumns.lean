import CreateTable.Grammar.SortClause
import CreateTable.Schema.Table

/-!
# Columns of a key

`'(' name [COLLATE name] [ASC | DESC] {',' …} ')'`

## Main definitions

- `IndexedColumns.step` — reads the columns of a primary or unique key
-/

namespace CreateTable.Grammar.IndexedColumns

open Verdict

/-- Where the columns of a key are. The columns read so far stand latest first. -/
inductive State where
  /-- The opening parenthesis is due. -/
  | opening
  /-- A name is due. -/
  | name (columns : List IndexedColumn)
  /-- Behind the name of a column. -/
  | named (columns : List IndexedColumn) (column : IndexedColumn)
  /-- The name of a collation is due. -/
  | collation (columns : List IndexedColumn) (column : IndexedColumn)
  /-- Behind the collation of a column. -/
  | collated (columns : List IndexedColumn) (column : IndexedColumn)
  /-- A comma or the end of the list is due. -/
  | next (columns : List IndexedColumn)
  /-- The list is closed. -/
  | closed (columns : List IndexedColumn)
  deriving Repr, DecidableEq

/-- The verdict behind a whole column. -/
def afterColumn (columns : List IndexedColumn) (t : Token) : Verdict State (List IndexedColumn) :=
  match t.kind with
  | .comma => .taken (.name columns)
  | .rightParen => .taken (.closed columns.reverse)
  | _ => t.refuse .commaOrCloseAfterIndexed

/-- The verdict where a direction may stand. -/
def afterCollation (columns : List IndexedColumn) (column : IndexedColumn) (t : Token) :
    Verdict State (List IndexedColumn) :=
  match t.sortOrder? with
  | some order => .taken (.next ({ column with order } :: columns))
  | none => afterColumn (column :: columns) t

/-- The verdict on a token of the columns of a key. -/
def step : State → Token → Verdict State (List IndexedColumn)
  | .opening, t => takeKind t .leftParen .openBeforeIndexed (.name [])
  | .name columns, t => takeName t .column fun name => .named columns { name }
  | .named columns column, t =>
    if t.isKeyword .collate then .taken (.collation columns column)
    else afterCollation columns column t
  | .collation columns column, t =>
    takeName t .collation fun name => .collated columns { column with collation := some name }
  | .collated columns column, t => afterCollation columns column t
  | .next columns, t => afterColumn columns t
  | .closed columns, _ => .complete columns

theorem afterColumn_sparesEnd (columns : List IndexedColumn) (t : Token) :
    (afterColumn columns t).SparesEnd t := by
  unfold afterColumn
  split
  · simp [*]
  · simp [*]
  · simp

theorem afterCollation_sparesEnd (columns : List IndexedColumn) (column : IndexedColumn)
    (t : Token) : (afterCollation columns column t).SparesEnd t := by
  unfold afterCollation
  split
  · exact sparesEnd_taken.2 (Token.kind_ne_endOfInput_of_sortOrder? ‹_›)
  · exact afterColumn_sparesEnd _ _

theorem step_sparesEnd (s : State) (t : Token) : (step s t).SparesEnd t := by
  unfold step
  split
  · exact sparesEnd_takeKind _ _ _ (by simp)
  · exact sparesEnd_takeName _ _ _
  · split
    · exact sparesEnd_taken.2 (Token.kind_ne_endOfInput_of_isKeyword ‹_›)
    · exact afterCollation_sparesEnd _ _ _
  · exact sparesEnd_takeName _ _ _
  · exact afterCollation_sparesEnd _ _ _
  · exact afterColumn_sparesEnd _ _
  · simp

end CreateTable.Grammar.IndexedColumns
