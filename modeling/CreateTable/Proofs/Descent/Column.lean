import CreateTable.Parser.Column
import CreateTable.Proofs.Descent.ForeignKey

/-!
# Columns

The procedure for a column does what its reader does. Where a constraint is due, the window may hold
a `NOT` that the reader has been given already.

## Main definitions

- `AtConstraint` — where a constraint is due

## Main statements

- `follows_columnType` — the type of a column
- `meetsConstraint_rest` — what follows the first word of a constraint
- `meets_columnConstraint` — one more constraint
- `reads_columnRest` — a column behind its name
-/

namespace CreateTable.Parser

open Lexical (Window)
open Grammar Grammar.Column

variable {limits : Limits} {column : Column}

-- ════════════════════════════════════════════════════════════════════════
-- Types
-- ════════════════════════════════════════════════════════════════════════

theorem follows_typeSize :
    Follows (Column.step limits) (Column.step limits (.size column .start)) typeSize fun size t =>
      takeKind t .rightParen .closeAfterTypeSize
        (.constraints { column with length := some (Token.verbatim size) }) := by
  have hsize : Follows (Column.step limits) (Column.step limits (.size column .start))
      (signedNumber .typeSize) (afterSize column) :=
    (reads_signedNumber .typeSize).part fun _ _ => rfl
  refine hsize.bind fun size t => .current ?_
  refine .eat_bind (fun hcomma => ?_) fun hcomma => .pure ?_
  · have hscale : Follows (Column.step limits)
        (Column.step limits (.scale column (size ++ [t]) .start)) (signedNumber .typeScale)
        fun scale u => takeKind u .rightParen .closeAfterTypeSize
          (.constraints { column with length := some (Token.verbatim (size ++ [t] ++ scale)) }) :=
      (reads_signedNumber .typeScale).part fun _ _ => rfl
    refine ⟨_, by simp [afterSize, hcomma], hscale.bind fun scale u => .pure ?_⟩
    simp
  · simp only [afterSize, takeKind]
    split <;> simp_all

/-- The verdict behind the words of a type, of which there are some. -/
def behindType (column : Column) (t : Token) : Verdict State Column :=
  match t.kind with
  | .leftParen => .taken (.size column .start)
  | _ => betweenConstraints column t

theorem follows_columnLength :
    Follows (Column.step limits) (behindType column) (columnLength column)
      betweenConstraints := by
  intro t
  refine .eat_bind (fun hopen => ⟨.size column .start, by simp [behindType, hopen], ?_⟩)
    fun _ => .pure (by simp [behindType])
  exact follows_typeSize.bind fun size => .expect_bind fun _ _ => .pure rfl

/-- The type that some words make, latest first. -/
def ofWords (column : Column) (words : List Token) : Column :=
  { column with type := some (Token.verbatim words.reverse) }

/-- The verdict on a token behind some words of a type, as if there were one at least. -/
def inType (column : Column) (words : List Token) (t : Token) : Verdict State Column :=
  if t.isTypeWord then .taken (.type column (t :: words))
  else behindType (ofWords column words) t

theorem step_type (word : Token) (words : List Token) :
    Column.step limits (.type column (word :: words)) = inType column (word :: words) := rfl

theorem follows_typeTurn (words : List Token) :
    Follows (Column.step limits) (inType column words) (typeTurn words)
      (Sum.elim (inType column) fun words => behindType (ofWords column words)) := by
  intro t
  refine .current ?_
  split
  · rename_i hword
    refine .advance_bind (s := .type column (t :: words)) (by simp [inType, hword]) ?_
    rw [step_type]
    exact fun u => .pure rfl
  · rename_i hword
    exact .pure (if_neg hword)

theorem follows_columnType :
    Follows (Column.step limits) (Column.step limits (.type column [])) (columnType column)
      betweenConstraints := by
  intro t
  refine .current ?_
  split
  · rename_i hword
    refine .advance_bind (s := .type column [t]) (by simp [Column.step, hword]) ?_
    rw [step_type]
    exact (Follows.loop follows_typeTurn [t]).bind fun words => follows_columnLength
  · rename_i hword
    exact .pure (if_neg hword)

-- ════════════════════════════════════════════════════════════════════════
-- Constraints
-- ════════════════════════════════════════════════════════════════════════

/-- A procedure reads a constraint behind which no `NOT` is held. -/
def ReadsConstraint (limits : Limits) (s : ColumnConstraint.State) (x : Parser ColumnConstraint) :
    Prop :=
  Follows (ColumnConstraint.step limits) (ColumnConstraint.step limits s) x
    fun constraint _ => .complete { constraint }

theorem readsConstraint_default :
    ReadsConstraint limits .default do return .default (← default limits) := by
  unfold default
  intro t
  rw [bind_assoc]
  refine .current ?_
  split
  · rename_i hopen
    have hpart : Follows (ColumnConstraint.step limits)
        (ColumnConstraint.step limits (.expression .opening)) (expression limits)
        fun text _ => .complete { constraint := .default text } :=
      (reads_expression limits).part fun _ _ => rfl
    have hstep : ColumnConstraint.step limits .default t =
        ColumnConstraint.step limits (.expression .opening) t := by
      simp [ColumnConstraint.step, Grammar.ColumnConstraint.default, Expression.step, takeKind,
        hopen]
    rw [hstep]
    exact (hpart t).bind fun text _ => .pure rfl
  · rename_i hoperator
    have hpart : Follows (ColumnConstraint.step limits)
        (ColumnConstraint.step limits (.number .start)) (signedNumber .defaultValue)
        fun tokens _ => .complete { constraint := .default (Token.verbatim tokens) } :=
      (reads_signedNumber .defaultValue).part fun _ _ => rfl
    have hstep : ColumnConstraint.step limits .default t =
        ColumnConstraint.step limits (.number .start) t := by
      simp [ColumnConstraint.step, Grammar.ColumnConstraint.default, hoperator]
    rw [hstep, bind_assoc]
    exact (hpart t).bind fun tokens _ => .pure rfl
  · split
    · rename_i hliteral
      rw [bind_assoc]
      refine .advance_bind (s := .closed (.default t.source)) ?_ fun _ => .pure rfl
      simp [ColumnConstraint.step, Grammar.ColumnConstraint.default, hliteral]
    · rename_i hliteral
      rw [refuse_bind]
      refine .refuse ?_
      simp [ColumnConstraint.step, Grammar.ColumnConstraint.default, hliteral]

theorem readsConstraint_notNull : ReadsConstraint limits .null do
    let _ ← expectKeyword .null .nullAfterNot
    return .notNull (← conflictClause) :=
  .expect_bind fun _ => (reads_conflictClause.part fun _ _ => rfl).bind fun _ _ => .pure rfl

theorem readsConstraint_primaryKey : ReadsConstraint limits .key primaryKey := by
  have hconflict : ∀ order, Follows (ColumnConstraint.step limits)
      (ColumnConstraint.step limits (.keyConflict order .start)) conflictClause fun conflict t =>
        if t.isKeyword .autoincrement then .taken (.closed (.primaryKey order conflict true))
        else .complete { constraint := .primaryKey order conflict false } :=
    fun _ => reads_conflictClause.part fun _ _ => rfl
  refine .expect_bind fun _ => (follows_order fun _ => rfl).bind fun order =>
    (hconflict order).bind fun conflict t => ?_
  refine .eat_bind (fun hword => ⟨.closed (.primaryKey order conflict true), ?_, ?_⟩)
    fun hword => .pure ?_
  · simp [Token.isKeyword, hword]
  · exact fun _ => .pure rfl
  · simp [Token.isKeyword, hword]

/-- What is left behind a constraint. -/
def LeavesConstraint (constraint : ColumnConstraint) (w : Window)
    (v : Verdict ColumnConstraint.State ColumnConstraint.Result) : Prop :=
  ∃ r, v = .complete r ∧ r.constraint = constraint ∧ Holds w r.heldNot

/-- A procedure reads a constraint, behind which a `NOT` may be held. -/
def MeetsConstraint (limits : Limits) (s : ColumnConstraint.State) (x : Parser ColumnConstraint) :
    Prop :=
  ∀ p, p.window.lookahead = none →
    Meets (ColumnConstraint.step limits) (ColumnConstraint.step limits s p.window.current) p x
      LeavesConstraint

theorem ReadsConstraint.meets {s : ColumnConstraint.State} {x : Parser ColumnConstraint}
    (h : ReadsConstraint limits s x) : MeetsConstraint limits s x := by
  refine fun p hlook => (h _ p hlook rfl).mono ?_
  rintro constraint w _ ⟨hw, rfl⟩
  exact ⟨{ constraint }, rfl, rfl, .none hw⟩

theorem meetsConstraint_references :
    MeetsConstraint limits (.references .table) do return .references (← foreignKey) := by
  have hstep : ∀ s t, ColumnConstraint.step limits (.references s) t =
      (References.step s t).andThen .references fun r =>
        .complete { constraint := .references r.key, heldNot := r.heldNot } := fun _ _ => rfl
  refine fun p hlook => (Meets.part hstep hlook (hstep _ _) (meets_foreignKey ⟨hlook, rfl⟩)).bind ?_
  rintro key q _ ⟨r, rfl, rfl, hheld⟩
  exact .pure ⟨_, rfl, rfl, hheld⟩

/-- What follows the first word of a constraint. -/
theorem meetsConstraint_rest {word : Keyword} {rest : Parser ColumnConstraint}
    (h : constraintRest? limits word = some rest) :
    ∃ s, ColumnConstraint.start? word = some s ∧ MeetsConstraint limits s rest := by
  cases word <;> cases h
  case primary => exact ⟨_, rfl, readsConstraint_primaryKey.meets⟩
  case not => exact ⟨_, rfl, readsConstraint_notNull.meets⟩
  case null =>
    have hreads : ReadsConstraint limits (.nullable .start) do
        let _ ← conflictClause
        return .null :=
      (reads_conflictClause.part fun _ _ => rfl).bind fun _ _ => .pure rfl
    exact ⟨_, rfl, hreads.meets⟩
  case unique =>
    have hreads : ReadsConstraint limits (.unique .start) do return .unique (← conflictClause) :=
      (reads_conflictClause.part fun _ _ => rfl).bind fun _ _ => .pure rfl
    exact ⟨_, rfl, hreads.meets⟩
  case check =>
    have hreads : ReadsConstraint limits (.check .opening) do
        return .check (← expression limits) :=
      ((reads_expression limits).part fun _ _ => rfl).bind fun _ _ => .pure rfl
    exact ⟨_, rfl, hreads.meets⟩
  case default => exact ⟨_, rfl, readsConstraint_default.meets⟩
  case collate =>
    have hreads : ReadsConstraint limits .collation do return .collate (← name .collation) :=
      .name_bind fun _ _ => .pure rfl
    exact ⟨_, rfl, hreads.meets⟩
  case references => exact ⟨_, rfl, meetsConstraint_references⟩

theorem start?_eq_none {word : Keyword} (h : constraintRest? limits word = none) :
    ColumnConstraint.start? word = none := by
  cases word <;> first | rfl | cases h

-- ════════════════════════════════════════════════════════════════════════
-- Columns
-- ════════════════════════════════════════════════════════════════════════

/-- Where a constraint is due. A `NOT` that is held begins one, and the reader is behind it. -/
inductive AtConstraint (limits : Limits) (column : Column) (w : Window) :
    Verdict State Column → Prop
  | free : w.lookahead = none → AtConstraint limits column w (betweenConstraints column w.current)
  | held {t : Token} : w.lookahead = some t → w.current.kind = .keyword .not →
    AtConstraint limits column w (Column.step limits (.constraint column .null) t)

theorem beginConstraint_of_starts {t : Token} (h : startsColumnConstraint t)
    (v v' : Verdict State Column) : beginConstraint column t v = beginConstraint column t v' := by
  simp only [startsColumnConstraint] at h
  split at h
  · rename_i word hword
    cases word <;> simp_all [beginConstraint, ColumnConstraint.start?]
  · cases h

theorem beginConstraint_of_not_starts {t : Token} (h : ¬startsColumnConstraint t)
    (v : Verdict State Column) : beginConstraint column t v = v := by
  simp only [startsColumnConstraint] at h
  split at h
  · rename_i word hword
    cases word <;> simp_all [beginConstraint, ColumnConstraint.start?]
  · simp only [beginConstraint]
    split <;> simp_all

theorem follows_constraintName :
    Follows (Column.step limits) (betweenConstraints column) (constraintName column)
      fun column t => beginConstraint column t (.complete column) := by
  intro t
  refine .eat_bind (fun hword => ⟨.constraintName column, ?_, ?_⟩) fun hword => .pure ?_
  · simp [betweenConstraints, Token.isKeyword, hword]
  · refine .name_bind fun name t => .current ?_
    split
    · rename_i hstarts
      exact .pure (beginConstraint_of_starts hstarts _ _)
    · rename_i hstarts
      exact .refuse (beginConstraint_of_not_starts hstarts _)
  · simp [betweenConstraints, Token.isKeyword, hword]

/-- Behind a constraint, another is due. -/
theorem AtConstraint.of_afterConstraint {w : Window} {r : ColumnConstraint.Result}
    (h : Holds w r.heldNot) :
    AtConstraint limits (column.constrain r.constraint) w
      (afterConstraint column r w.ahead.current) := by
  obtain ⟨constraint, heldNot⟩ := r
  cases h with
  | none hlook =>
    rw [Window.ahead_eq_self hlook]
    exact .free hlook
  | @not t hlook hnot =>
    have hnull : afterConstraint column ⟨constraint, some w.current⟩ t =
        Column.step limits (.constraint (column.constrain constraint) .null) t := by
      simp only [afterConstraint, Column.step, ColumnConstraint.step, takeKeyword, takeKind]
      split <;> rfl
    rw [Window.current_ahead hlook, hnull]
    exact .held hlook hnot

/-- What follows the first word of a constraint, and the column with it. -/
theorem MeetsConstraint.constrain {rest : Parser ColumnConstraint} {s : ColumnConstraint.State}
    {p : Point} (hrest : MeetsConstraint limits s rest) (hlook : p.window.lookahead = none) :
    Meets (Column.step limits) (Column.step limits (.constraint column s) p.window.current) p
      (do return .inl (column.constrain (← rest)))
      (Sum.elim (AtConstraint limits) fun column => Free fun _ => .complete column) := by
  have hstep : ∀ s t, Column.step limits (.constraint column s) t =
      (ColumnConstraint.step limits s t).andThen (.constraint column) fun r =>
        afterConstraint column r t := fun _ _ => rfl
  refine (Meets.part hstep hlook (hstep _ _) (hrest p hlook)).bind ?_
  rintro _ q _ ⟨r, rfl, rfl, hheld⟩
  exact .pure (.of_afterConstraint hheld)

/-- Where a `NOT` is held, the window moves on to the token that the reader is given next. -/
theorem meets_columnConstraint_of_held {p : Point} {t : Token}
    (hlook : p.window.lookahead = some t) (hnot : p.window.current.kind = .keyword .not) :
    Meets (Column.step limits) (Column.step limits (.constraint column .null) t) p
      (columnConstraint limits column)
      (Sum.elim (AtConstraint limits) fun column => Free fun _ => .complete column) := by
  rw [columnConstraint, constraintName, eatKeyword, eat_bind, bind_assoc]
  refine .current ?_
  rw [if_neg (by simp [hnot]), if_neg Bool.false_ne_true, pure_bind, constraintRule]
  refine .current ?_
  simp only [hnot, constraintRest?]
  refine .advance_bind_of_held hlook fun q hq => ?_
  obtain ⟨hlook', rfl⟩ : q.window.lookahead = none ∧ q.window.current = t :=
    ⟨by rw [hq, Window.lookahead_ahead], by rw [hq, Window.current_ahead hlook]⟩
  exact readsConstraint_notNull.meets.constrain hlook'

/-- What a constraint demands of a column. -/
theorem meets_constraintRule {p : Point} (hlook : p.window.lookahead = none) :
    Meets (Column.step limits) (beginConstraint column p.window.current (.complete column)) p
      (constraintRule limits column)
      (Sum.elim (AtConstraint limits) fun column => Free fun _ => .complete column) := by
  refine .current ?_
  split
  · rename_i hgenerated
    exact .current (.fail (by simp [beginConstraint, hgenerated]))
  · rename_i has
    exact .current (.fail (by simp [beginConstraint, has]))
  · rename_i word _ _ hword
    split
    · rename_i rest hrest
      obtain ⟨s, hs, hmeets⟩ := meetsConstraint_rest hrest
      rw [show beginConstraint column p.window.current (.complete column) =
        .taken (.constraint column s) by simp [beginConstraint, hword, hs]]
      exact .advance_bind hlook fun q hq => hmeets.constrain hq
    · rename_i hnone
      refine .pure ⟨hlook, ?_⟩
      simp [beginConstraint, hword, start?_eq_none hnone]
  · exact .pure ⟨hlook, by simp [beginConstraint]⟩

/-- One more constraint. -/
theorem meets_columnConstraint {p : Point} {v : Verdict State Column}
    (hp : AtConstraint limits column p.window v) :
    Meets (Column.step limits) v p (columnConstraint limits column)
      (Sum.elim (AtConstraint limits) fun column => Free fun _ => .complete column) := by
  cases hp with
  | held hlook hnot => exact meets_columnConstraint_of_held hlook hnot
  | free hlook =>
    refine (follows_constraintName.meets ⟨hlook, rfl⟩).bind ?_
    rintro column q _ ⟨hlook, rfl⟩
    exact meets_constraintRule hlook

/-- A column behind its name. -/
theorem reads_columnRest (name : String) :
    Reads (Column.step limits) (.ofName name)
      (do
        let column ← columnType { name }
        loop (columnConstraint limits) column) := by
  refine follows_columnType.bind fun column => ?_
  rintro t p hlook rfl
  exact Meets.loop (fun _ _ _ => meets_columnConstraint) column (.free hlook)

end CreateTable.Parser
