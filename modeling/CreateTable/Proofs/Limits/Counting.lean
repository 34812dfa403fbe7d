import CreateTable.Proofs.Limits.Nesting

/-!
# Counting parentheses

Every reader keeps count of the parentheses that are open in an expression, takes none beyond the
limit, and exceeds a limit only with one more parenthesis or one more column.

## Main definitions

- `Statement.State.nesting` — the nesting in a state of the reader
- `Statement.State.Exceeds` — a token that is refused for a limit

## Main statements

- `Statement.step_follows` — one step of the reader goes along with the nesting
- `Statement.nesting_of_takes` — the state behind some tokens has their nesting
- `Statement.opened_le_of_takes` — no more parentheses are open than the limit allows
-/

namespace CreateTable.Grammar

open Verdict

variable {limits : Limits} {exceeds : ParseError → Prop} {t : Token}

-- ════════════════════════════════════════════════════════════════════════
-- Readers without expressions
-- ════════════════════════════════════════════════════════════════════════

theorem NameList.step_follows (role : NameRole) (closing : Expectation) (s : State) :
    (step role closing s t).Follows limits plain exceeds .outside t := by
  cases s with
  | name names => exact follows_takeName fun _ => rfl
  | next names =>
    rw [step]
    split
    · exact follows_taken ‹_› rfl rfl
    · exact follows_taken ‹_› rfl rfl
    · exact follows_refuse _ _ _
  | closed names => exact .complete rfl

theorem SignedNumber.step_follows (what : Expectation) (s : State) :
    (step what s t).Follows limits plain exceeds .outside t := by
  cases s with
  | start =>
    rw [step]
    split
    · exact follows_taken ‹_› rfl rfl
    · split
      · rename_i hsign
        simp only [Token.isSign, Bool.and_eq_true, beq_iff_eq] at hsign
        exact follows_taken hsign.1 rfl rfl
      · exact follows_refuse _ _ _
  | signed sign => exact follows_takeKind _ rfl rfl
  | closed tokens => exact .complete rfl

theorem ConflictClause.step_follows (s : State) :
    (step s t).Follows limits plain exceeds .outside t := by
  cases s with
  | start =>
    rw [step]
    split
    · exact follows_taken (Token.isKeyword_iff.1 ‹_›) rfl rfl
    · exact .complete rfl
  | conflict => exact follows_takeKind _ rfl rfl
  | resolution =>
    rw [step]
    split
    · exact follows_taken rfl (Token.isCue_of_resolution? ‹_›) rfl
    · exact follows_refuse _ _ _
  | closed r => exact .complete rfl

namespace IndexedColumns

theorem afterColumn_follows (columns : List IndexedColumn) :
    (afterColumn columns t).Follows limits plain exceeds .outside t := by
  unfold afterColumn
  split
  · exact follows_taken ‹_› rfl rfl
  · exact follows_taken ‹_› rfl rfl
  · exact follows_refuse _ _ _

theorem afterCollation_follows (columns : List IndexedColumn) (column : IndexedColumn) :
    (afterCollation columns column t).Follows limits plain exceeds .outside t := by
  unfold afterCollation
  split
  · exact follows_taken rfl (Token.isCue_of_sortOrder? ‹_›) rfl
  · exact afterColumn_follows _

theorem step_follows (s : State) : (step s t).Follows limits plain exceeds .outside t := by
  cases s with
  | opening => exact follows_takeKind _ rfl rfl
  | name columns => exact follows_takeName fun _ => rfl
  | named columns column =>
    rw [step]
    split
    · exact follows_taken (Token.isKeyword_iff.1 ‹_›) rfl rfl
    · exact afterCollation_follows _ _
  | collation columns column => exact follows_takeName fun _ => rfl
  | collated columns column => exact afterCollation_follows _ _
  | next columns => exact afterColumn_follows _
  | closed columns => exact .complete rfl

end IndexedColumns

-- ════════════════════════════════════════════════════════════════════════
-- Readers with expressions
-- ════════════════════════════════════════════════════════════════════════

/-- The nesting in a foreign key, in which `DEFAULT` is an action. -/
def References.State.nesting : References.State → Nesting
  | .set _ _ => .set
  | _ => .outside

namespace References

theorem betweenClauses_follows (key : ForeignKey) :
    (betweenClauses key t).Follows limits State.nesting exceeds .outside t := by
  unfold betweenClauses
  split
  · exact follows_taken ‹_› rfl rfl
  · exact follows_taken ‹_› rfl rfl
  · exact follows_taken ‹_› rfl rfl
  · exact follows_taken ‹_› rfl rfl
  · exact .complete rfl

theorem step_follows (s : State) :
    (step s t).Follows limits State.nesting exceeds s.nesting t := by
  cases s with
  | table => exact follows_takeName fun _ => rfl
  | named key =>
    rw [step]
    split
    · exact follows_taken ‹_› rfl rfl
    · exact betweenClauses_follows _
  | columns key names =>
    exact (NameList.step_follows _ _ _).andThen (fun _ => rfl)
      fun _ => betweenClauses_follows _
  | clauses key => exact betweenClauses_follows _
  | event key =>
    rw [step]
    split
    · exact follows_taken ‹_› rfl rfl
    · exact follows_taken ‹_› rfl rfl
    · exact follows_refuse _ _ _
  | action key event =>
    rw [step]
    split
    · rename_i hset
      exact follows_taken_outside (Eq.symm (Nesting.next_of_kind hset rfl))
    · exact follows_taken ‹_› rfl rfl
    · exact follows_taken ‹_› rfl rfl
    · exact follows_taken ‹_› rfl rfl
    · exact follows_refuse _ _ _
  | set key event =>
    rw [step]
    split
    · rename_i hnull
      exact follows_taken_of_next (Nesting.next_of_kind hnull rfl) rfl (Nat.zero_le _)
    · rename_i hdefault
      exact follows_taken_of_next (Nesting.next_of_kind hdefault rfl) rfl (Nat.zero_le _)
    · exact follows_refuse _ _ _
  | no key event => exact follows_takeKind _ rfl rfl
  | matchType key => exact follows_takeName fun _ => rfl
  | not key word =>
    rw [step]
    split
    · exact follows_taken ‹_› rfl rfl
    · exact .complete rfl
  | deferrable key negated =>
    rw [step]
    split
    · exact follows_taken ‹_› rfl rfl
    · exact .complete rfl
  | initially key negated =>
    rw [step]
    split
    · exact follows_taken ‹_› rfl rfl
    · exact follows_taken ‹_› rfl rfl
    · exact follows_refuse _ _ _
  | closed key => exact .complete rfl

end References

/-- The parenthesis of an expression that is one more than may be open. -/
def Exceeds (limits : Limits) (n : Nesting) (t : Token) (e : ParseError) : Prop :=
  t.kind = .leftParen ∧ 0 < n.opened ∧ limits.maxExprDepth ≤ n.opened ∧
    e = t.error (.nestedTooDeep limits.maxExprDepth)

/-- The nesting in an expression. -/
def Expression.State.nesting : Expression.State → Nesting
  | .opening => .due
  | .inside nested _ => .inside nested
  | .closed _ | .empty _ => .outside

theorem Expression.step_follows (s : State) :
    (step limits s t).Follows limits State.nesting (Exceeds limits s.nesting t) s.nesting t := by
  cases s with
  | opening =>
    unfold step takeKind
    dsimp only
    split
    · exact follows_taken_of_next (Nesting.next_due_leftParen ‹_›) rfl (Nat.le_max_left _ _)
    · exact follows_refuse _ _ _
  | inside nested read =>
    unfold step
    dsimp only [State.nesting]
    split
    · exact follows_error (by simp [Cause.kind])
    · rename_i hopening
      split
      · refine follows_taken_of_next (Nesting.next_inside_leftParen _ hopening) rfl ?_
        simp only [Nesting.opened]
        omega
      · refine .refused fun _ => ⟨hopening, Nat.succ_pos _, ?_, rfl⟩
        simp only [Nesting.opened]
        omega
    · rename_i hclosing
      refine follows_taken_of_next (Nesting.next_inside_outer hclosing) ?_ (Nat.zero_le _)
      unfold close
      split <;> rfl
    · rename_i hclosing
      have hnext := fun inner => Nesting.next_inside_rightParen inner hclosing
      refine .taken (hnext _).symm fun h => ?_
      rw [hnext]
      simp only [Nesting.opened] at h ⊢
      omega
    · rename_i nested _ _ _ hopening hzero hsucc
      have hclosing : t.kind ≠ .rightParen := by
        intro hclosing
        cases nested with
        | zero => exact hzero hclosing rfl
        | succ n => exact hsucc n hclosing rfl
      have hnext := Nesting.next_inside_other nested hopening hclosing
      refine .taken hnext.symm fun h => ?_
      rwa [hnext]
  | closed text => exact .complete rfl
  | empty close => exact follows_refuse _ _ _

/-- The nesting in a column constraint. -/
def ColumnConstraint.State.nesting : ColumnConstraint.State → Nesting
  | .check inner | .expression inner => inner.nesting
  | .default => .due
  | .references target => target.nesting
  | _ => .outside

namespace ColumnConstraint

/-- The state behind the first word of a constraint has the nesting behind that word. -/
theorem nesting_of_start? {word : Keyword} {s : State} (h : start? word = some s)
    (ht : t.kind = .keyword word) : s.nesting = Nesting.outside.next t := by
  cases word <;> cases h <;> exact Eq.symm (Nesting.next_of_kind ht rfl)

theorem keyConflict_follows (order : SortOrder) (clause : ConflictClause.State) :
    (keyConflict order clause t).Follows limits State.nesting exceeds .outside t := by
  refine (ConflictClause.step_follows clause).andThen (fun _ => rfl) fun _ => ?_
  split
  · exact follows_taken (Token.isKeyword_iff.1 ‹_›) rfl rfl
  · exact .complete rfl

theorem isCue_of_isLiteral (h : isLiteral t) : t.kind.isCue = false := by
  simp only [isLiteral, Bool.or_eq_true, beq_iff_eq, Token.isKeyword_iff,
    Option.isSome_iff_exists] at h
  obtain ((h | h) | h) | ⟨name, h⟩ := h
  · rw [h]; rfl
  · rw [h]; rfl
  · rw [h]; rfl
  · exact Token.isCue_of_name? h

/-- The first token of a default, which is an expression if it is a parenthesis. -/
theorem default_follows : (default t).Follows limits State.nesting exceeds .due t := by
  unfold default
  split
  · exact follows_taken_of_next (Nesting.next_due_leftParen ‹_›) rfl (Nat.le_max_left _ _)
  · rename_i hoperator
    have hnext : Nesting.due.next t = .outside := Nesting.next_of_kind hoperator rfl
    rw [SignedNumber.step]
    split
    · exact follows_taken_of_next hnext rfl (Nat.zero_le _)
    · split
      · exact follows_taken_of_next hnext rfl (Nat.zero_le _)
      · exact follows_refuse _ _ _
  · rename_i hopening _
    split
    · have hnext : Nesting.due.next t = .outside :=
        Nesting.next_due (isCue_of_isLiteral ‹_›) hopening
      exact follows_taken_of_next hnext rfl (Nat.zero_le _)
    · exact follows_refuse _ _ _

theorem step_follows (s : State) :
    (step limits s t).Follows limits State.nesting (Exceeds limits s.nesting t) s.nesting t := by
  cases s with
  | key => exact follows_takeKind _ rfl rfl
  | order =>
    rw [step]
    split
    · exact follows_taken rfl (Token.isCue_of_sortOrder? ‹_›) rfl
    · exact keyConflict_follows _ _
  | keyConflict order clause => exact keyConflict_follows _ _
  | null => exact follows_takeKind _ rfl rfl
  | notNull clause =>
    exact (ConflictClause.step_follows clause).last fun _ => rfl
  | nullable clause =>
    exact (ConflictClause.step_follows clause).last fun _ => rfl
  | unique clause =>
    exact (ConflictClause.step_follows clause).last fun _ => rfl
  | check expression =>
    exact (Expression.step_follows expression).last fun _ => rfl
  | default => exact default_follows
  | number number =>
    exact (SignedNumber.step_follows _ number).last fun _ => rfl
  | expression expression =>
    exact (Expression.step_follows expression).last fun _ => rfl
  | collation => exact follows_takeName fun _ => rfl
  | references key =>
    exact (References.step_follows key).last fun _ => rfl
  | closed constraint => exact .complete rfl

end ColumnConstraint

/-- The nesting in a column. -/
def Column.State.nesting : Column.State → Nesting
  | .constraint _ inner => inner.nesting
  | _ => .outside

namespace Column

variable {column : CreateTable.Column}

theorem isCue_of_isTypeWord (h : t.isTypeWord) : t.kind.isCue = false := by
  simp only [Token.isTypeWord, Bool.and_eq_true, Option.isSome_iff_exists] at h
  obtain ⟨⟨name, hname⟩, -⟩ := h
  exact Token.isCue_of_name? hname

theorem beginConstraint_follows {otherwise : Verdict State CreateTable.Column}
    (h : otherwise.Follows limits State.nesting exceeds .outside t) :
    (beginConstraint column t otherwise).Follows limits State.nesting exceeds .outside t := by
  unfold beginConstraint
  split
  · exact follows_error (by simp [Cause.kind])
  · exact follows_error (by simp [Cause.kind])
  · rename_i word _ _ hword
    split
    · rename_i s hs
      exact follows_taken_outside (ColumnConstraint.nesting_of_start? hs hword)
    · exact h
  · exact h

theorem betweenConstraints_follows :
    (betweenConstraints column t).Follows limits State.nesting exceeds .outside t := by
  unfold betweenConstraints
  split
  · exact follows_taken (Token.isKeyword_iff.1 ‹_›) rfl rfl
  · exact beginConstraint_follows (.complete rfl)

theorem afterType_follows (words : List Token) :
    (afterType column words t).Follows limits State.nesting exceeds .outside t := by
  unfold afterType
  split
  · exact betweenConstraints_follows
  · dsimp only
    split
    · exact follows_taken ‹_› rfl rfl
    · exact betweenConstraints_follows

theorem afterSize_follows (size : List Token) :
    (afterSize column size t).Follows limits State.nesting exceeds .outside t := by
  unfold afterSize
  split
  · exact follows_taken ‹_› rfl rfl
  · exact follows_taken ‹_› rfl rfl
  · exact follows_refuse _ _ _

theorem afterConstraint_follows (r : ColumnConstraint.Result) :
    (afterConstraint column r t).Follows limits State.nesting exceeds .outside t := by
  unfold afterConstraint
  dsimp only
  split
  · exact betweenConstraints_follows
  · exact follows_takeKind _ rfl rfl

theorem step_follows (s : State) :
    (step limits s t).Follows limits State.nesting (Exceeds limits s.nesting t) s.nesting t := by
  cases s with
  | type column words =>
    rw [step]
    split
    · exact follows_taken rfl (isCue_of_isTypeWord ‹_›) rfl
    · exact afterType_follows _
  | size column number =>
    exact (SignedNumber.step_follows _ number).andThen (fun _ => rfl)
      fun _ => afterSize_follows _
  | scale column size number =>
    exact (SignedNumber.step_follows _ number).andThen (fun _ => rfl)
      fun _ => follows_takeKind _ rfl rfl
  | constraints column => exact betweenConstraints_follows
  | constraintName column => exact follows_takeName fun _ => rfl
  | named column => exact beginConstraint_follows (follows_refuse _ _ _)
  | constraint column constraint =>
    exact (ColumnConstraint.step_follows constraint).andThen (fun _ => rfl)
      fun _ => afterConstraint_follows _

end Column

/-- The nesting in a table constraint. -/
def TableConstraint.State.nesting : TableConstraint.State → Nesting
  | .check _ inner => inner.nesting
  | .references _ _ target => target.nesting
  | _ => .outside

namespace TableConstraint

/-- The state behind the word that says what a constraint demands has the nesting behind it. -/
theorem nesting_of_rule? {name : OptionalName} {word : Keyword} {s : State}
    (h : rule? name word = some s) (ht : t.kind = .keyword word) :
    s.nesting = Nesting.outside.next t := by
  cases word <;> cases h <;> exact Eq.symm (Nesting.next_of_kind ht rfl)

/-- The first token of a table constraint. -/
theorem follows_of_start? {σ α : Type} {nesting : σ → Nesting} {n : σ} {s : State}
    (h : start? t = some s) (hn : nesting n = s.nesting) :
    (taken n : Verdict σ α).Follows limits nesting exceeds .outside t := by
  unfold start? at h
  split at h
  · obtain rfl := Option.some.inj h
    exact follows_taken ‹_› rfl hn
  · rename_i word _ hword
    exact follows_taken_outside (hn.trans (nesting_of_rule? h hword))
  · cases h

theorem afterName_follows (name : String) :
    (afterName name t).Follows limits State.nesting exceeds .outside t := by
  unfold afterName
  split
  · rename_i word hword
    split
    · rename_i s hs
      exact follows_taken_outside (nesting_of_rule? hs hword)
    · exact follows_refuse _ _ _
  · exact follows_refuse _ _ _

theorem step_follows (s : State) :
    (step limits s t).Follows limits State.nesting (Exceeds limits s.nesting t) s.nesting t := by
  cases s with
  | name => exact follows_takeName fun _ => rfl
  | named name => exact afterName_follows _
  | primary name => exact follows_takeKind _ rfl rfl
  | primaryColumns name columns =>
    exact (IndexedColumns.step_follows columns).andThen (fun _ => rfl)
      fun _ => (ConflictClause.step_follows _).last fun _ => rfl
  | primaryConflict name columns clause => exact (ConflictClause.step_follows clause).last fun _ => rfl
  | uniqueColumns name columns =>
    exact (IndexedColumns.step_follows columns).andThen (fun _ => rfl)
      fun _ => (ConflictClause.step_follows _).last fun _ => rfl
  | uniqueConflict name columns clause => exact (ConflictClause.step_follows clause).last fun _ => rfl
  | check name expression =>
    exact (Expression.step_follows expression).andThen (fun _ => rfl)
      fun _ => (ConflictClause.step_follows _).last fun _ => rfl
  | checkConflict name text clause => exact (ConflictClause.step_follows clause).last fun _ => rfl
  | foreign name => exact follows_takeKind _ rfl rfl
  | foreignOpen name => exact follows_takeKind _ rfl rfl
  | foreignColumns name columns =>
    exact (NameList.step_follows _ _ columns).andThen (fun _ => rfl)
      fun _ => follows_takeKind _ rfl rfl
  | references name columns key =>
    exact (References.step_follows key).last fun _ => rfl

end TableConstraint

-- ════════════════════════════════════════════════════════════════════════
-- Bodies and statements
-- ════════════════════════════════════════════════════════════════════════

/-- The nesting in a body. -/
def Body.State.nesting : Body.State → Nesting
  | .column _ inner => inner.nesting
  | .constraint _ inner => inner.nesting
  | _ => .outside

namespace Body

/-- The first token of a column that is one more than allowed. A body that has columns and no
    constraints may be closed there, or go on with a constraint. -/
def Progress.Exceeds (limits : Limits) (p : Progress) (t : Token) (e : ParseError) : Prop :=
  p.room = 0 ∧ p.constraints = [] ∧ TableConstraint.start? t = none ∧
    (t.kind = .rightParen → p.columns = []) ∧ e = t.error (.tooManyColumns limits.maxColumns)

/-- A token of a body that exceeds a limit. -/
def State.Exceeds (limits : Limits) (s : State) (t : Token) (e : ParseError) : Prop :=
  match s with
  | .start => Progress.Exceeds limits (.start limits t) t e
  | .item p => p.Exceeds limits t e
  | s => Grammar.Exceeds limits s.nesting t e

variable {p : Progress} {v : Verdict State Items}

theorem requireColumn_follows (h : v.Follows limits State.nesting exceeds .outside t) :
    (requireColumn p v).Follows limits State.nesting exceeds .outside t := by
  unfold requireColumn
  split
  · exact follows_error (by simp [Cause.kind])
  · exact h

theorem finish_follows : (finish p t).Follows limits State.nesting exceeds .outside t :=
  requireColumn_follows (follows_takeKind _ rfl rfl)

theorem item_follows :
    (item limits p t).Follows limits State.nesting (p.Exceeds limits t) .outside t := by
  unfold item
  split
  · exact finish_follows
  · rename_i hclose
    split
    · exact TableConstraint.follows_of_start? ‹_› rfl
    · rename_i hstart
      split
      · rename_i hconstraints
        rw [List.isEmpty_iff] at hconstraints
        unfold beginColumn
        split
        · rename_i hroom
          refine .refused fun _ => ⟨hroom, hconstraints, hstart, fun hkind => ?_, rfl⟩
          simpa [hkind, hconstraints] using hclose
        · exact follows_takeName fun _ => rfl
      · exact follows_refuse _ _ _

theorem afterColumn_follows : (afterColumn p t).Follows limits State.nesting exceeds .outside t := by
  unfold afterColumn
  split
  · exact follows_taken ‹_› rfl rfl
  · exact finish_follows

theorem afterConstraint_follows :
    (afterConstraint p t).Follows limits State.nesting exceeds .outside t := by
  unfold afterConstraint
  split
  · exact TableConstraint.follows_of_start? ‹_› rfl
  · exact afterColumn_follows

theorem step_follows (s : State) :
    (step limits s t).Follows limits State.nesting (s.Exceeds limits t) s.nesting t := by
  cases s with
  | start => exact item_follows
  | item p => exact item_follows
  | column p column =>
    exact (Column.step_follows column).andThen (fun _ => rfl) fun _ => afterColumn_follows
  | constraint p constraint =>
    refine (TableConstraint.step_follows constraint).andThen (fun _ => rfl) fun r => ?_
    split
    · exact afterConstraint_follows
    · exact requireColumn_follows (follows_refuse _ _ _)
  | closed items => exact .complete rfl

end Body

/-- The nesting in a statement. -/
def Statement.State.nesting : Statement.State → Nesting
  | .body _ inner => inner.nesting
  | _ => .outside

namespace Statement

/-- A token of a statement that exceeds a limit. -/
def State.Exceeds (limits : Limits) (s : State) (t : Token) (e : ParseError) : Prop :=
  ∃ table body, s = .body table body ∧ body.Exceeds limits t e

variable {table : Table}

theorem tableWord_follows :
    (tableWord table t).Follows limits State.nesting exceeds .outside t := by
  unfold tableWord
  split
  · exact follows_taken ‹_› rfl rfl
  · split
    · exact follows_error (by simp [Cause.kind])
    · exact follows_refuse _ _ _
  · exact follows_refuse _ _ _

theorem firstName_follows :
    (firstName table t).Follows limits State.nesting exceeds .outside t :=
  follows_takeName fun _ => rfl

theorem afterName_follows :
    (afterName table t).Follows limits State.nesting exceeds .outside t := by
  unfold afterName
  split
  · exact follows_error (by simp [Cause.kind])
  · exact follows_takeKind _ rfl rfl

theorem finish_follows : (finish table t).Follows limits State.nesting exceeds .outside t := by
  unfold finish
  split
  · exact follows_taken ‹_› rfl rfl
  · exact .complete rfl
  · exact follows_refuse _ _ _

theorem beginOption_follows {otherwise : Verdict State Table}
    (h : otherwise.Follows limits State.nesting exceeds .outside t) :
    (beginOption table t otherwise).Follows limits State.nesting exceeds .outside t := by
  unfold beginOption
  split
  · exact follows_taken (Token.isKeyword_iff.1 ‹_›) rfl rfl
  · split
    · exact follows_taken rfl (Token.isCue_of_isBareWord ‹_›) rfl
    · exact h

theorem step_follows (s : State) :
    (step limits s t).Follows limits State.nesting (s.Exceeds limits t) s.nesting t := by
  cases s with
  | start => exact follows_takeKind _ rfl rfl
  | created =>
    rw [step]
    split
    · exact follows_taken ‹_› rfl rfl
    · exact follows_taken ‹_› rfl rfl
    · exact tableWord_follows
  | temporary => exact tableWord_follows
  | table table =>
    rw [step]
    split
    · exact follows_taken (Token.isKeyword_iff.1 ‹_›) rfl rfl
    · exact firstName_follows
  | ifWord table => exact follows_takeKind _ rfl rfl
  | ifNot table => exact follows_takeKind _ rfl rfl
  | name table => exact firstName_follows
  | named table name =>
    rw [step]
    split
    · exact follows_taken ‹_› rfl rfl
    · exact afterName_follows
  | qualified table => exact follows_takeName fun _ => rfl
  | bodyOpen table => exact afterName_follows
  | body table body =>
    have hexceeds : ∀ e, body.Exceeds limits t e → (State.body table body).Exceeds limits t e :=
      fun _ h => ⟨table, body, rfl, h⟩
    exact ((Body.step_follows body).mono hexceeds).andThen (fun _ => rfl) fun _ =>
      beginOption_follows finish_follows
  | without table =>
    rw [step]
    split
    · exact follows_taken rfl (Token.isCue_of_isWord ‹_›) rfl
    · exact follows_refuse _ _ _
  | optionEnd table =>
    rw [step]
    split
    · exact follows_taken ‹_› rfl rfl
    · exact finish_follows
  | option table => exact beginOption_follows (follows_refuse _ _ _)
  | terminated table =>
    rw [step]
    split
    · exact follows_taken ‹_› rfl rfl
    · exact .complete rfl
    · exact follows_error (by simp [Cause.kind])

-- ════════════════════════════════════════════════════════════════════════
-- Runs
-- ════════════════════════════════════════════════════════════════════════

variable {s : State} {ts : List Token}

/-- The state behind some tokens has their nesting. -/
theorem nesting_of_takes (h : Takes (step limits) .start ts s) : s.nesting = .behind ts :=
  (h.follows fun s _ => step_follows s).1

/-- Behind the tokens at the front of those that are taken, no more parentheses of an expression
    are open than allowed. -/
theorem opened_le_of_takes (h : Takes (step limits) .start ts s) {front : List Token}
    (hfront : front <+: ts) : opened front ≤ max 1 limits.maxExprDepth := by
  obtain ⟨rest, rfl⟩ := hfront
  obtain ⟨n, hn, -⟩ := takes_append.1 h
  rw [opened, ← nesting_of_takes hn]
  exact (hn.follows fun s _ => step_follows s).2 (Nat.zero_le _)

end Statement

end CreateTable.Grammar
