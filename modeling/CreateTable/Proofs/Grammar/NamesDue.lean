import CreateTable.Proofs.Grammar.Body

/-!
# Where names are due

A statement names its table and schema, its columns and constraints, collations, match types, and
the tables and columns that foreign keys refer to. Each of these names is due in certain states of a
reader, and only there is one asked for.

## Main definitions

- `Statement.State.nameDue?` — what a name is due for in a state
- `Verdict.Asks` — a token is refused for want of a name
- `Verdict.AsksFor` — a token is refused for want of a name only if one is due

## Main statements

- `Statement.asksFor` — a name is asked for only where it is due
- `Statement.asks_comma` — it is asked for there, unless there are too many columns

## Design notes

The words of a type and the word that is a default are tokens that stand for names as well. They are
held as they were written, and are not among the names of a statement.
-/

namespace CreateTable

open Grammar

-- ════════════════════════════════════════════════════════════════════════
-- Where names are due
-- ════════════════════════════════════════════════════════════════════════

namespace Grammar

/-- What a name is due for in a list of names. -/
def NameList.State.nameDue? (role : NameRole) : NameList.State → Option NameRole
  | .name _ => some role
  | .next _ | .closed _ => none

/-- What a name is due for in the columns of a key. -/
def IndexedColumns.State.nameDue? : IndexedColumns.State → Option NameRole
  | .name _ => some .column
  | .collation .. => some .collation
  | _ => none

/-- What a name is due for in a foreign key. -/
def References.State.nameDue? : References.State → Option NameRole
  | .table => some .referencedTable
  | .columns _ names => names.nameDue? .referencedColumn
  | .matchType _ => some .matchType
  | _ => none

/-- What a name is due for in a constraint on a column. -/
def ColumnConstraint.State.nameDue? : ColumnConstraint.State → Option NameRole
  | .collation => some .collation
  | .references target => target.nameDue?
  | _ => none

/-- What a name is due for in a column. -/
def Column.State.nameDue? : Column.State → Option NameRole
  | .constraintName _ => some .constraint
  | .constraint _ k => k.nameDue?
  | _ => none

/-- What a name is due for in a table constraint. -/
def TableConstraint.State.nameDue? : TableConstraint.State → Option NameRole
  | .name => some .constraint
  | .primaryColumns _ columns | .uniqueColumns _ columns => columns.nameDue?
  | .foreignColumns _ columns => columns.nameDue? .column
  | .references _ _ target => target.nameDue?
  | _ => none

/-- What a name is due for in a body. -/
def Body.State.nameDue? : Body.State → Option NameRole
  | .start => some .column
  | .item p => if p.constraints.isEmpty then some .column else none
  | .column _ c => c.nameDue?
  | .constraint _ k => k.nameDue?
  | .closed _ => none

/-- What a name is due for in a statement. -/
def Statement.State.nameDue? : Statement.State → Option NameRole
  | .table _ | .name _ | .qualified _ => some .table
  | .body _ b => b.nameDue?
  | _ => none

end Grammar

-- ════════════════════════════════════════════════════════════════════════
-- Where names are asked for
-- ════════════════════════════════════════════════════════════════════════

/-- What a name was asked for. -/
def Expectation.nameRole? : Expectation → Option NameRole
  | .name role => some role
  | _ => none

/-- What a name was asked for where reading stopped, if that is the cause. -/
def Cause.nameRole? : Cause → Option NameRole
  | .expected what | .expectedBeforeEnd what => what.nameRole?
  | _ => none

/-- A verdict that refuses its token for want of a name. -/
def Verdict.Asks {σ α : Type} (v : Verdict σ α) (role : NameRole) : Prop :=
  ∃ e, v = .refused e ∧ e.cause.nameRole? = some role

/-- A verdict that refuses its token for want of a name only if the name is due for the given
    role. -/
def Verdict.AsksFor {σ α : Type} (v : Verdict σ α) (due : Option NameRole) : Prop :=
  ∀ e role, v = .refused e → e.cause.nameRole? = some role → due = some role

theorem Verdict.Asks.due {σ α : Type} {v : Verdict σ α} {role : NameRole} {due : Option NameRole}
    (h : v.Asks role) (hv : v.AsksFor due) : due = some role := by
  obtain ⟨e, he, hrole⟩ := h
  exact hv e role he hrole

theorem Verdict.Asks.andThen {σ τ α β : Type} {v : Verdict σ α} {role : NameRole}
    (h : v.Asks role) (within : σ → τ) (after : α → Verdict τ β) :
    (v.andThen within after).Asks role := by
  obtain ⟨e, rfl, hrole⟩ := h
  exact ⟨e, rfl, hrole⟩

namespace Verdict.AsksFor

variable {σ τ α β : Type} {due : Option NameRole} {t : Token}

@[simp] protected theorem taken (s : σ) : (taken s : Verdict σ α).AsksFor due :=
  fun _ _ h => nomatch h

@[simp] protected theorem complete (a : α) : (complete a : Verdict σ α).AsksFor due :=
  fun _ _ h => nomatch h

theorem of_cause {cause : Cause} (h : cause.nameRole? = none) (t : Token) :
    (refused (t.error cause) : Verdict σ α).AsksFor due := by
  rintro _ role ⟨⟩ hrole
  cases h.symm.trans hrole

theorem refuse {what : Expectation} (h : what.nameRole? = none ∨ what.nameRole? = due) (t : Token) :
    (t.refuse what : Verdict σ α).AsksFor due := by
  have hunexpected : (t.unexpected what).cause.nameRole? = what.nameRole? := by
    unfold Token.unexpected
    split <;> rfl
  rintro _ role ⟨⟩ hrole
  obtain h | h := h
  · cases h.symm.trans (hunexpected.symm.trans hrole)
  · exact h.symm.trans (hunexpected.symm.trans hrole)

theorem andThen {v : Verdict σ α} {within : σ → τ} {after : α → Verdict τ β} (h : v.AsksFor due)
    (hafter : ∀ a, (after a).AsksFor none) : (v.andThen within after).AsksFor due := by
  cases v with
  | taken s => exact .taken _
  | complete a =>
    intro e role he hrole
    cases hafter a e role he hrole
  | refused e => exact fun e' role he => h e' role (by simpa using he)

end Verdict.AsksFor

namespace Grammar

open Verdict

variable {σ α : Type} {due : Option NameRole}

theorem asksFor_takeName (t : Token) (role : NameRole) (next : String → σ) :
    (takeName t role next : Verdict σ α).AsksFor (some role) := by
  unfold takeName
  split
  · exact .taken _
  · exact .refuse (.inr rfl) t

theorem asksFor_takeKind (t : Token) (kind : TokenKind) {what : Expectation}
    (hwhat : what.nameRole? = none) (next : σ) :
    (takeKind t kind what next : Verdict σ α).AsksFor due := by
  unfold takeKind
  split
  · exact .taken _
  · exact .refuse (.inl hwhat) t

theorem NameList.asksFor (role : NameRole) {closing : Expectation}
    (hclosing : closing.nameRole? = none) (s : NameList.State) (t : Token) :
    (NameList.step role closing s t).AsksFor (s.nameDue? role) := by
  unfold NameList.step
  split
  · exact asksFor_takeName _ _ _
  · split
    · exact .taken _
    · exact .taken _
    · exact .refuse (.inl hclosing) t
  · exact .complete _

theorem ConflictClause.asksFor (s : ConflictClause.State) (t : Token) :
    (ConflictClause.step s t).AsksFor due := by
  unfold ConflictClause.step
  split
  · split
    · exact .taken _
    · exact .complete _
  · exact asksFor_takeKind _ _ rfl _
  · split
    · exact .taken _
    · exact .refuse (.inl rfl) t
  · exact .complete _

theorem SignedNumber.asksFor {what : Expectation} (hwhat : what.nameRole? = none)
    (s : SignedNumber.State) (t : Token) : (SignedNumber.step what s t).AsksFor due := by
  unfold SignedNumber.step
  split
  · split
    · exact .taken _
    · split
      · exact .taken _
      · exact .refuse (.inl hwhat) t
  · exact asksFor_takeKind _ _ hwhat _
  · exact .complete _

theorem Expression.asksFor (limits : Limits) (s : Expression.State) (t : Token) :
    (Expression.step limits s t).AsksFor due := by
  unfold Expression.step
  split
  · exact asksFor_takeKind _ _ rfl _
  · split
    · exact .of_cause rfl t
    · split
      · exact .taken _
      · exact .of_cause rfl t
    · exact .taken _
    · exact .taken _
    · exact .taken _
  · exact .complete _
  · exact .refuse (.inl rfl) _

namespace IndexedColumns

theorem afterColumn_asksFor (columns : List IndexedColumn) (t : Token) :
    (afterColumn columns t).AsksFor due := by
  unfold afterColumn
  split
  · exact .taken _
  · exact .taken _
  · exact .refuse (.inl rfl) t

theorem afterCollation_asksFor (columns : List IndexedColumn) (column : IndexedColumn)
    (t : Token) : (afterCollation columns column t).AsksFor due := by
  unfold afterCollation
  split
  · exact .taken _
  · exact afterColumn_asksFor _ _

theorem asksFor (s : State) (t : Token) : (step s t).AsksFor s.nameDue? := by
  unfold step
  split
  · exact asksFor_takeKind _ _ rfl _
  · exact asksFor_takeName _ _ _
  · split
    · exact .taken _
    · exact afterCollation_asksFor _ _ _
  · exact asksFor_takeName _ _ _
  · exact afterCollation_asksFor _ _ _
  · exact afterColumn_asksFor _ _
  · exact .complete _

end IndexedColumns

namespace References

theorem betweenClauses_asksFor (key : ForeignKey) (t : Token) :
    (betweenClauses key t).AsksFor due := by
  unfold betweenClauses
  split
  all_goals first | exact .taken _ | exact .complete _

theorem asksFor (s : State) (t : Token) : (step s t).AsksFor s.nameDue? := by
  unfold step
  split
  · exact asksFor_takeName _ _ _
  · split
    · exact .taken _
    · exact betweenClauses_asksFor _ _
  · exact (NameList.asksFor _ rfl _ _).andThen fun _ => betweenClauses_asksFor _ _
  · exact betweenClauses_asksFor _ _
  · split
    all_goals first | exact .taken _ | exact .refuse (.inl rfl) t
  · split
    all_goals first | exact .taken _ | exact .refuse (.inl rfl) t
  · split
    all_goals first | exact .taken _ | exact .refuse (.inl rfl) t
  · exact asksFor_takeKind _ _ rfl _
  · exact asksFor_takeName _ _ _
  · split
    all_goals first | exact .taken _ | exact .complete _
  · split
    all_goals first | exact .taken _ | exact .complete _
  · split
    all_goals first | exact .taken _ | exact .refuse (.inl rfl) t
  · exact .complete _

end References

variable (limits : Limits)

namespace ColumnConstraint

theorem keyConflict_asksFor (order : SortOrder) (clause : ConflictClause.State) (t : Token) :
    (keyConflict order clause t).AsksFor due := by
  refine (ConflictClause.asksFor clause t).andThen fun _ => ?_
  split
  · exact .taken _
  · exact .complete _

theorem default_asksFor (t : Token) : (default t).AsksFor due := by
  unfold default
  split
  · exact .taken _
  · exact (SignedNumber.asksFor rfl _ _).andThen fun _ => .complete _
  · split
    · exact .taken _
    · exact .refuse (.inl rfl) t

theorem asksFor (s : State) (t : Token) : (step limits s t).AsksFor s.nameDue? := by
  unfold step
  split
  · exact asksFor_takeKind _ _ rfl _
  · split
    · exact .taken _
    · exact keyConflict_asksFor _ _ _
  · exact keyConflict_asksFor _ _ _
  · exact asksFor_takeKind _ _ rfl _
  · exact (ConflictClause.asksFor _ _).andThen fun _ => .complete _
  · exact (ConflictClause.asksFor _ _).andThen fun _ => .complete _
  · exact (ConflictClause.asksFor _ _).andThen fun _ => .complete _
  · exact (Expression.asksFor _ _ _).andThen fun _ => .complete _
  · exact default_asksFor _
  · exact (SignedNumber.asksFor rfl _ _).andThen fun _ => .complete _
  · exact (Expression.asksFor _ _ _).andThen fun _ => .complete _
  · exact asksFor_takeName _ _ _
  · exact (References.asksFor _ _).andThen fun _ => .complete _
  · exact .complete _

end ColumnConstraint

namespace Column

theorem beginConstraint_asksFor (column : CreateTable.Column) (t : Token)
    {v : Verdict State CreateTable.Column} (hv : v.AsksFor due) :
    (beginConstraint column t v).AsksFor due := by
  unfold beginConstraint
  split
  · exact .of_cause rfl t
  · exact .of_cause rfl t
  · split
    · exact .taken _
    · exact hv
  · exact hv

theorem betweenConstraints_asksFor (column : CreateTable.Column) (t : Token) :
    (betweenConstraints column t).AsksFor due := by
  unfold betweenConstraints
  split
  · exact .taken _
  · exact beginConstraint_asksFor _ _ (.complete _)

theorem afterType_asksFor (column : CreateTable.Column) (words : List Token) (t : Token) :
    (afterType column words t).AsksFor due := by
  unfold afterType
  split
  · exact betweenConstraints_asksFor _ _
  · dsimp only
    split
    · exact .taken _
    · exact betweenConstraints_asksFor _ _

theorem afterSize_asksFor (column : CreateTable.Column) (size : List Token) (t : Token) :
    (afterSize column size t).AsksFor due := by
  unfold afterSize
  split
  · exact .taken _
  · exact .taken _
  · exact .refuse (.inl rfl) t

theorem afterConstraint_asksFor (column : CreateTable.Column) (r : ColumnConstraint.Result)
    (t : Token) : (afterConstraint column r t).AsksFor due := by
  unfold afterConstraint
  dsimp only
  split
  · exact betweenConstraints_asksFor _ _
  · exact asksFor_takeKind _ _ rfl _

theorem asksFor (s : State) (t : Token) : (step limits s t).AsksFor s.nameDue? := by
  unfold step
  split
  · split
    · exact .taken _
    · exact afterType_asksFor _ _ _
  · exact (SignedNumber.asksFor rfl _ _).andThen fun _ => afterSize_asksFor _ _ _
  · exact (SignedNumber.asksFor rfl _ _).andThen fun _ => asksFor_takeKind _ _ rfl _
  · exact betweenConstraints_asksFor _ _
  · exact asksFor_takeName _ _ _
  · exact beginConstraint_asksFor _ _ (.refuse (.inl rfl) t)
  · exact (ColumnConstraint.asksFor _ _ _).andThen fun _ => afterConstraint_asksFor _ _ _

end Column

namespace TableConstraint

theorem afterName_asksFor (name : String) (t : Token) : (afterName name t).AsksFor due := by
  unfold afterName
  split
  · split
    · exact .taken _
    · exact .refuse (.inl rfl) t
  · exact .refuse (.inl rfl) t

theorem asksFor (s : State) (t : Token) : (step limits s t).AsksFor s.nameDue? := by
  unfold step
  split
  · exact asksFor_takeName _ _ _
  · exact afterName_asksFor _ _
  · exact asksFor_takeKind _ _ rfl _
  · exact (IndexedColumns.asksFor _ _).andThen fun _ =>
      (ConflictClause.asksFor _ _).andThen fun _ => .complete _
  · exact (ConflictClause.asksFor _ _).andThen fun _ => .complete _
  · exact (IndexedColumns.asksFor _ _).andThen fun _ =>
      (ConflictClause.asksFor _ _).andThen fun _ => .complete _
  · exact (ConflictClause.asksFor _ _).andThen fun _ => .complete _
  · exact (Expression.asksFor _ _ _).andThen fun _ =>
      (ConflictClause.asksFor _ _).andThen fun _ => .complete _
  · exact (ConflictClause.asksFor _ _).andThen fun _ => .complete _
  · exact asksFor_takeKind _ _ rfl _
  · exact asksFor_takeKind _ _ rfl _
  · exact (NameList.asksFor _ rfl _ _).andThen fun _ => asksFor_takeKind _ _ rfl _
  · exact (References.asksFor _ _).andThen fun _ => .complete _

end TableConstraint

namespace Body

theorem requireColumn_asksFor (p : Progress) {v : Verdict State Items} (hv : v.AsksFor due) :
    (requireColumn p v).AsksFor due := by
  unfold requireColumn
  split
  · exact .of_cause rfl _
  · exact hv

theorem finish_asksFor (p : Progress) (t : Token) : (finish p t).AsksFor due :=
  requireColumn_asksFor p (asksFor_takeKind _ _ rfl _)

theorem afterColumn_asksFor (p : Progress) (t : Token) : (afterColumn p t).AsksFor due := by
  unfold afterColumn
  split
  · exact .taken _
  · exact finish_asksFor p t

theorem afterConstraint_asksFor (p : Progress) (t : Token) :
    (afterConstraint p t).AsksFor due := by
  unfold afterConstraint
  split
  · exact .taken _
  · exact afterColumn_asksFor p t

theorem item_asksFor (p : Progress) (t : Token) :
    (item limits p t).AsksFor (State.item p).nameDue? := by
  unfold item
  split
  · exact finish_asksFor p t
  · split
    · exact .taken _
    · split
      · rename_i hp
        rw [State.nameDue?, if_pos hp]
        unfold beginColumn
        split
        · exact .of_cause rfl t
        · exact asksFor_takeName _ _ _
      · exact .refuse (.inl rfl) t

theorem asksFor (s : State) (t : Token) : (step limits s t).AsksFor s.nameDue? := by
  unfold step
  split
  · exact item_asksFor limits _ t
  · exact item_asksFor limits _ t
  · exact (Column.asksFor limits _ _).andThen fun _ => afterColumn_asksFor _ _
  · refine (TableConstraint.asksFor limits _ _).andThen fun _ => ?_
    split
    · exact afterConstraint_asksFor _ _
    · exact requireColumn_asksFor _ (.refuse (.inl rfl) _)
  · exact .complete _

end Body

namespace Statement

theorem tableWord_asksFor (table : Table) (t : Token) : (tableWord table t).AsksFor due := by
  unfold tableWord
  split
  · exact .taken _
  · split
    · exact .of_cause rfl t
    · exact .refuse (.inl rfl) t
  · exact .refuse (.inl rfl) t

theorem afterName_asksFor (table : Table) (t : Token) : (afterName table t).AsksFor due := by
  unfold afterName
  split
  · exact .of_cause rfl t
  · exact asksFor_takeKind _ _ rfl _

theorem finish_asksFor (table : Table) (t : Token) : (finish table t).AsksFor due := by
  unfold finish
  split
  · exact .taken _
  · exact .complete _
  · exact .refuse (.inl rfl) t

theorem beginOption_asksFor (table : Table) (t : Token) {v : Verdict State Table}
    (hv : v.AsksFor due) : (beginOption table t v).AsksFor due := by
  unfold beginOption
  split
  · exact .taken _
  · split
    · exact .taken _
    · exact hv

/-- A name is asked for only where it is due. -/
theorem asksFor (s : State) (t : Token) : (step limits s t).AsksFor s.nameDue? := by
  unfold step
  split
  · exact asksFor_takeKind _ _ rfl _
  · split
    · exact .taken _
    · exact .taken _
    · exact tableWord_asksFor _ t
  · exact tableWord_asksFor _ t
  · split
    · exact .taken _
    · exact asksFor_takeName _ _ _
  · exact asksFor_takeKind _ _ rfl _
  · exact asksFor_takeKind _ _ rfl _
  · exact asksFor_takeName _ _ _
  · split
    · exact .taken _
    · exact afterName_asksFor _ t
  · exact asksFor_takeName _ _ _
  · exact afterName_asksFor _ t
  · exact (Body.asksFor limits _ _).andThen fun _ =>
      beginOption_asksFor _ t (finish_asksFor _ t)
  · split
    · exact .taken _
    · exact .refuse (.inl rfl) t
  · split
    · exact .taken _
    · exact finish_asksFor _ t
  · exact beginOption_asksFor _ t (.refuse (.inl rfl) t)
  · split
    · exact .taken _
    · exact .complete _
    · exact .of_cause rfl t

end Statement

end Grammar

-- ════════════════════════════════════════════════════════════════════════
-- Where a comma is no name
-- ════════════════════════════════════════════════════════════════════════

namespace Grammar

variable {limits : Limits} {role due : NameRole}

theorem NameList.asks_comma {closing : Expectation} {s : NameList.State}
    (h : s.nameDue? role = some due) : (NameList.step role closing s .comma).Asks due := by
  cases s with
  | name names =>
    obtain rfl := Option.some.inj h
    exact ⟨_, rfl, rfl⟩
  | next | closed => cases h

theorem IndexedColumns.asks_comma {s : IndexedColumns.State} (h : s.nameDue? = some due) :
    (IndexedColumns.step s .comma).Asks due := by
  cases s with
  | name _ | collation _ _ =>
    obtain rfl := Option.some.inj h
    exact ⟨_, rfl, rfl⟩
  | _ => cases h

theorem References.asks_comma {s : References.State} (h : s.nameDue? = some due) :
    (References.step s .comma).Asks due := by
  cases s with
  | table | matchType _ =>
    obtain rfl := Option.some.inj h
    exact ⟨_, rfl, rfl⟩
  | columns key names => exact (NameList.asks_comma h).andThen _ _
  | _ => cases h

theorem ColumnConstraint.asks_comma {s : ColumnConstraint.State} (h : s.nameDue? = some due) :
    (ColumnConstraint.step limits s .comma).Asks due := by
  cases s with
  | collation =>
    obtain rfl := Option.some.inj h
    exact ⟨_, rfl, rfl⟩
  | references key => exact (References.asks_comma h).andThen _ _
  | _ => cases h

theorem Column.asks_comma {s : Column.State} (h : s.nameDue? = some due) :
    (Column.step limits s .comma).Asks due := by
  cases s with
  | constraintName column =>
    obtain rfl := Option.some.inj h
    exact ⟨_, rfl, rfl⟩
  | constraint column k => exact (ColumnConstraint.asks_comma h).andThen _ _
  | _ => cases h

theorem TableConstraint.asks_comma {s : TableConstraint.State} (h : s.nameDue? = some due) :
    (TableConstraint.step limits s .comma).Asks due := by
  cases s with
  | name =>
    obtain rfl := Option.some.inj h
    exact ⟨_, rfl, rfl⟩
  | primaryColumns _ _ | uniqueColumns _ _ => exact (IndexedColumns.asks_comma h).andThen _ _
  | foreignColumns _ _ => exact (NameList.asks_comma h).andThen _ _
  | references _ _ _ => exact (References.asks_comma h).andThen _ _
  | _ => cases h

namespace Body

variable {p : Progress} {t : Token} {name : String}

theorem item_asks_comma (hp : p.constraints.isEmpty) (hroom : p.room ≠ 0) :
    (item limits p .comma).Asks .column := by
  have hkind : Token.comma.kind ≠ .rightParen := by decide
  have hstart : TableConstraint.start? Token.comma = none := rfl
  rw [item, if_neg (fun hclosing => hkind hclosing.1), hstart]
  dsimp only
  rw [if_pos hp, beginColumn, if_neg hroom]
  exact ⟨_, rfl, rfl⟩

/-- A name is refused where a column may begin only if there are too many of them. -/
theorem room_ne_zero_of_item (hp : p.constraints.isEmpty) (ht : t.name? = some name)
    (h : ∀ e, item limits p t ≠ .refused e) : p.room ≠ 0 := by
  have hkind : t.kind ≠ .rightParen := by
    intro hkind
    simp [Token.name?, hkind] at ht
  intro hroom
  refine h (t.error (.tooManyColumns limits.maxColumns)) ?_
  rw [item, if_neg (fun hclosing => hkind hclosing.1), start?_of_name? ht]
  dsimp only
  rw [if_pos hp, beginColumn, if_pos hroom]

theorem asks_comma {s : State} (h : s.nameDue? = some due) (ht : t.name? = some name)
    (hname : ∀ e, step limits s t ≠ .refused e) : (step limits s .comma).Asks due := by
  cases s with
  | start =>
    obtain rfl := Option.some.inj h
    exact item_asks_comma rfl (room_ne_zero_of_item (p := .start limits t) rfl ht hname)
  | item p =>
    obtain ⟨hp, hdue⟩ := Option.ite_none_right_eq_some.1 h
    obtain rfl := Option.some.inj hdue
    exact item_asks_comma hp (room_ne_zero_of_item hp ht hname)
  | column p c => exact (Column.asks_comma h).andThen _ _
  | constraint p k => exact (TableConstraint.asks_comma h).andThen _ _
  | closed items => cases h

end Body

/-- Where a name is due and a token is not refused that stands for one, a comma is refused for want
    of it. -/
theorem Statement.asks_comma {s : State} {t : Token} {name : String} (h : s.nameDue? = some due)
    (ht : t.name? = some name) (hname : ∀ e, step limits s t ≠ .refused e) :
    (step limits s .comma).Asks due := by
  cases s with
  | table _ | name _ | qualified _ =>
    obtain rfl := Option.some.inj h
    exact ⟨_, rfl, rfl⟩
  | body table b =>
    refine (Body.asks_comma h ht fun e he => hname e ?_).andThen _ _
    rw [step, he, Verdict.andThen_refused]
  | _ => cases h

end Grammar

end CreateTable
