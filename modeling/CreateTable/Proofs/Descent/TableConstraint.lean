import CreateTable.Parser.TableConstraint
import CreateTable.Proofs.Descent.ForeignKey

/-!
# Table constraints

The procedure for a constraint on a table does what its reader does. As behind a foreign key, the
window may then hold a `NOT` that the reader hands back.

## Main statements

- `reads_indexedColumns` — the columns of a key
- `meets_rule` — what a constraint demands
- `meets_tableConstraint` — a constraint
-/

namespace CreateTable.Parser

open Lexical (Window)
open Grammar Grammar.TableConstraint

variable {limits : Limits} {name : OptionalName}

-- ════════════════════════════════════════════════════════════════════════
-- Columns of a key
-- ════════════════════════════════════════════════════════════════════════

theorem follows_collation (columns : List IndexedColumn) (name : String) :
    Follows IndexedColumns.step (IndexedColumns.step (.named columns { name })) collation
      fun collation => IndexedColumns.afterCollation columns { name, collation } := by
  intro t
  refine .eat_bind (fun hcollate => ⟨.collation columns { name }, ?_, ?_⟩) fun hcollate => .pure ?_
  · simp [IndexedColumns.step, Token.isKeyword, hcollate]
  · exact .name_bind fun _ _ => .pure rfl
  · simp [IndexedColumns.step, Token.isKeyword, hcollate]

theorem follows_indexedColumnTurn (columns : List IndexedColumn) :
    Follows IndexedColumns.step (IndexedColumns.step (.name columns)) (indexedColumnTurn columns)
      (Sum.elim (fun columns => IndexedColumns.step (.name columns)) fun columns t =>
        takeKind t .rightParen .commaOrCloseAfterIndexed (.closed columns)) := by
  refine .name_bind fun name => (follows_collation columns name).bind fun collation => ?_
  have horder : Follows IndexedColumns.step
      (IndexedColumns.afterCollation columns { name, collation }) order
      fun order => IndexedColumns.afterColumn ({ name, collation, order } :: columns) :=
    follows_order fun _ => rfl
  refine horder.bind fun order t => .eat_bind (fun hcomma => ?_) fun hcomma => .pure ?_
  · exact ⟨.name ({ name, collation, order } :: columns),
      by simp [IndexedColumns.afterColumn, hcomma], fun _ => .pure rfl⟩
  · simp only [IndexedColumns.afterColumn, takeKind, Sum.elim_inr]
    split <;> simp_all

theorem reads_indexedColumns : Reads IndexedColumns.step .opening indexedColumns :=
  .expect_bind fun _ => (Follows.loop follows_indexedColumnTurn []).bind fun _ =>
    .expect_bind fun _ _ => .pure rfl

-- ════════════════════════════════════════════════════════════════════════
-- Constraints
-- ════════════════════════════════════════════════════════════════════════

/-- What is left behind a constraint. -/
def LeavesTableConstraint (constraint : TableConstraint) (w : Window)
    (v : Verdict State Result) : Prop :=
  ∃ r, v = .complete r ∧ r.constraint = constraint ∧ Holds w r.heldNot

/-- A procedure reads what a constraint demands, behind which no `NOT` is held. -/
def ReadsRule (limits : Limits) (name : OptionalName) (s : State)
    (x : Parser TableConstraint.Rule) : Prop :=
  Follows (TableConstraint.step limits) (TableConstraint.step limits s) x
    fun rule _ => .complete { constraint := { name, rule } }

theorem ReadsRule.meets {s : State} {x : Parser TableConstraint.Rule} {p : Point}
    (h : ReadsRule limits name s x) (hlook : p.window.lookahead = none) :
    Meets (TableConstraint.step limits) (TableConstraint.step limits s p.window.current) p x
      fun rule => LeavesTableConstraint { name, rule } := by
  refine (h _ p hlook rfl).mono ?_
  rintro rule w _ ⟨hw, rfl⟩
  exact ⟨{ constraint := { name, rule } }, rfl, rfl, .none hw⟩

/-- The columns of a foreign key, through `REFERENCES`. -/
theorem follows_referencing :
    Follows (TableConstraint.step limits) (TableConstraint.step limits (.foreign name))
      (do
        let _ ← expectKeyword .key .keyAfterForeign
        let _ ← expect .leftParen .openAfterForeignKey
        let columns ← nameList .column
        let _ ← expect .rightParen .closeAfterForeignKey
        let _ ← expectKeyword .references .references
        return columns)
      fun columns => TableConstraint.step limits (.references name columns .table) :=
  .expect_bind fun _ => .expect_bind fun _ => .names_bind (fun _ _ => rfl) fun _ =>
    .expect_bind fun _ _ => .pure rfl

theorem meets_foreignKeyRule {p : Point} (hlook : p.window.lookahead = none) :
    Meets (TableConstraint.step limits)
      (TableConstraint.step limits (.foreign name) p.window.current) p foreignKeyRule
      fun rule => LeavesTableConstraint { name, rule } := by
  have hkey : ∀ columns q v,
      Free (TableConstraint.step limits (.references name columns .table)) q.window v →
      Meets (TableConstraint.step limits) v q
        (do return TableConstraint.Rule.foreignKey columns (← foreignKey))
        fun rule => LeavesTableConstraint { name, rule } := by
    rintro columns q _ ⟨hlook, rfl⟩
    have hstep : ∀ s t, TableConstraint.step limits (.references name columns s) t =
        (References.step s t).andThen (.references name columns) fun r => .complete
          { constraint := { name, rule := .foreignKey columns r.key }, heldNot := r.heldNot } :=
      fun _ _ => rfl
    refine (Meets.part hstep hlook (hstep _ _) (meets_foreignKey ⟨hlook, rfl⟩)).bind ?_
    rintro _ q _ ⟨r, rfl, rfl, hheld⟩
    exact .pure ⟨_, rfl, rfl, hheld⟩
  have hmeets := (follows_referencing.meets ⟨hlook, rfl⟩).bind hkey
  simpa only [foreignKeyRule, bind_assoc, pure_bind] using hmeets

theorem readsRule_primary : ReadsRule limits name (.primary name) do
    let _ ← expectKeyword .key .keyAfterPrimary
    let columns ← indexedColumns
    return .primaryKey columns (← conflictClause) := by
  have hconflict : ∀ columns, Follows (TableConstraint.step limits)
      (TableConstraint.step limits (.primaryConflict name columns .start)) conflictClause
      fun conflict _ =>
        .complete { constraint := { name, rule := .primaryKey columns conflict } } :=
    fun _ => reads_conflictClause.part fun _ _ => rfl
  exact .expect_bind fun _ => (reads_indexedColumns.part fun _ _ => rfl).bind fun columns =>
    (hconflict columns).bind fun _ _ => .pure rfl

theorem readsRule_unique : ReadsRule limits name (.uniqueColumns name .opening) do
    let columns ← indexedColumns
    return .unique columns (← conflictClause) := by
  have hconflict : ∀ columns, Follows (TableConstraint.step limits)
      (TableConstraint.step limits (.uniqueConflict name columns .start)) conflictClause
      fun conflict _ => .complete { constraint := { name, rule := .unique columns conflict } } :=
    fun _ => reads_conflictClause.part fun _ _ => rfl
  exact (reads_indexedColumns.part fun _ _ => rfl).bind fun columns =>
    (hconflict columns).bind fun _ _ => .pure rfl

theorem readsRule_check : ReadsRule limits name (.check name .opening) do
    let text ← expression limits
    let _ ← conflictClause
    return .check text := by
  have hconflict : ∀ text, Follows (TableConstraint.step limits)
      (TableConstraint.step limits (.checkConflict name text .start)) conflictClause
      fun _ _ => .complete { constraint := { name, rule := .check text } } :=
    fun _ => reads_conflictClause.part fun _ _ => rfl
  exact ((reads_expression limits).part fun _ _ => rfl).bind fun text =>
    (hconflict text).bind fun _ _ => .pure rfl

/-- The verdict where the word is due that says what a constraint demands. -/
def atRule (name : OptionalName) (t : Token) : Verdict State Result :=
  match t.kind with
  | .keyword word =>
    match rule? name word with
    | some s => .taken s
    | none => t.refuse .constraintKind
  | _ => t.refuse .constraintKind

theorem atRule_of_keyword {t : Token} {word : Keyword} {s : State}
    (h : t.kind = .keyword word) (hs : rule? name word = some s) : atRule name t = .taken s := by
  simp only [atRule, h, hs]

/-- What a constraint demands. -/
theorem meets_rule {p : Point} {v : Verdict State Result} (hp : Free (atRule name) p.window v) :
    Meets (TableConstraint.step limits) v p (rule limits)
      fun rule => LeavesTableConstraint { name, rule } := by
  obtain ⟨hlook, rfl⟩ := hp
  refine .eat_bind hlook (fun hprimary => ?_) fun hprimary =>
    .eat_bind hlook (fun hunique => ?_) fun hunique =>
    .eat_bind hlook (fun hcheck => ?_) fun hcheck =>
    .eat_bind hlook (fun hforeign => ?_) fun hforeign => .current (.fail ?_)
  · exact ⟨.primary name, atRule_of_keyword hprimary rfl, fun q => readsRule_primary.meets⟩
  · exact ⟨.uniqueColumns name .opening, atRule_of_keyword hunique rfl,
      fun q => readsRule_unique.meets⟩
  · exact ⟨.check name .opening, atRule_of_keyword hcheck rfl, fun q => readsRule_check.meets⟩
  · exact ⟨.foreign name, atRule_of_keyword hforeign rfl, fun q => meets_foreignKeyRule⟩
  · have hnone : ∀ word, p.window.current.kind = .keyword word → rule? name word = none := by
      intro word hword
      cases word <;> first | rfl | exact absurd hword ‹_›
    simp only [atRule]
    split
    · rename_i word hword
      simp only [hnone word hword]
      rfl
    · rfl

theorem followsAt_optionalName {t : Token} {s : State} (h : start? t = some s) :
    FollowsAt (TableConstraint.step limits) t (.taken s) optionalName atRule := by
  refine .eat_bind (fun hconstraint => ⟨s, rfl, ?_⟩) fun hconstraint => .pure ?_
  · obtain rfl : .name = s := by simpa [start?, hconstraint] using h
    exact .name_bind fun name _ => .pure rfl
  · simp only [start?] at h
    split at h
    · exact absurd ‹_› hconstraint
    · rename_i word _ hword
      exact (atRule_of_keyword hword h).symm
    · cases h

/-- A constraint, where one begins. -/
theorem meets_tableConstraint {p : Point} {s : State} (hlook : p.window.lookahead = none)
    (hs : start? p.window.current = some s) :
    Meets (TableConstraint.step limits) (.taken s) p (tableConstraint limits)
      LeavesTableConstraint :=
  (followsAt_optionalName hs p hlook rfl).bind fun _ _ _ hp => (meets_rule hp).bind
    fun _ _ _ hq => .pure hq

end CreateTable.Parser
