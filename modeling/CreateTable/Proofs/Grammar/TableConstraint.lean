import CreateTable.Proofs.Grammar.ColumnConstraint

/-!
# The reader of table constraints

What is read behind the first word of a table constraint is what the rule derives behind it.

## Main definitions

- `TableConstraint.residual` — what is due in each state of the reader

## Main statements

- `TableConstraint.derives_of_residual` — what is due behind a first token is derived with it
- `TableConstraint.stops_of_derives` — what is derived is taken
-/

namespace CreateTable.Grammar.TableConstraint

variable {limits : Limits}

/-- A rule with the name of its constraint, or without one. -/
def RuleDue (limits : Limits) (name : OptionalName) (ts : List Token)
    (c : CreateTable.TableConstraint) : Prop :=
  ∃ rule, Demands limits.maxExprDepth ts rule ∧ c = { name, rule }

/-- What is due from a conflict clause at the end of a constraint on. -/
def ConflictDue (name : OptionalName) (rule : ConflictResolution → TableConstraint.Rule)
    (clause : ConflictClause.State) : List Token → Result → Prop :=
  Last (ConflictClause.residual clause) fun conflict =>
    { constraint := { name, rule := rule conflict } }

/-- What is due behind `PRIMARY KEY`, or behind some columns there. -/
def PrimaryDue (name : OptionalName) (columns : IndexedColumns.State) :
    List Token → Result → Prop :=
  Sequel (IndexedColumns.residual columns) fun columns =>
    ConflictDue name (.primaryKey columns) .start

/-- What is due behind `UNIQUE`, or behind some columns there. -/
def UniqueDue (name : OptionalName) (columns : IndexedColumns.State) : List Token → Result → Prop :=
  Sequel (IndexedColumns.residual columns) fun columns =>
    ConflictDue name (.unique columns) .start

/-- What is due behind `CHECK`, or behind some of the expression there. -/
def CheckDue (limits : Limits) (name : OptionalName) (expression : Expression.State) :
    List Token → Result → Prop :=
  Sequel (Expression.residual limits expression) fun text =>
    ConflictDue name (fun _ => .check text) .start

/-- What is due behind `REFERENCES`, or behind some of what follows it. -/
def TargetDue (name : OptionalName) (columns : List String) (key : References.State) :
    List Token → Result → Prop :=
  Last (References.residual key) fun k =>
    { constraint := { name, rule := .foreignKey columns k.key }, heldNot := k.heldNot }

/-- What is due behind the columns of a foreign key. -/
def ReferencesDue (name : OptionalName) (columns : List String) (ts : List Token) (r : Result) :
    Prop :=
  ∃ t us, ts = t :: us ∧ t.kind = .keyword .references ∧ TargetDue name columns .table us r

/-- What is due in the columns of a foreign key. -/
def ForeignDue (name : OptionalName) (columns : NameList.State) : List Token → Result → Prop :=
  Sequel (NameList.residual columns) (ReferencesDue name)

/-- What is due where the columns of a foreign key begin. -/
def ForeignOpenDue (name : OptionalName) (ts : List Token) (r : Result) : Prop :=
  ∃ t us, ts = t :: us ∧ t.kind = .leftParen ∧ ForeignDue name (.name []) us r

/-- The tokens due in a state, and the constraint that they end. -/
def residual (limits : Limits) : State → List Token → Result → Prop
  | .name, ts, r =>
    ∃ t us name, ts = t :: us ∧ t.name? = some name ∧
      Ends (RuleDue limits (some name)) us r.constraint r.heldNot
  | .named name, ts, r => Ends (RuleDue limits (some name)) ts r.constraint r.heldNot
  | .primary name, ts, r =>
    ∃ t us, ts = t :: us ∧ t.kind = .keyword .key ∧ PrimaryDue name .opening us r
  | .primaryColumns name columns, ts, r => PrimaryDue name columns ts r
  | .primaryConflict name columns clause, ts, r =>
    ConflictDue name (.primaryKey columns) clause ts r
  | .uniqueColumns name columns, ts, r => UniqueDue name columns ts r
  | .uniqueConflict name columns clause, ts, r => ConflictDue name (.unique columns) clause ts r
  | .check name expression, ts, r => CheckDue limits name expression ts r
  | .checkConflict name text clause, ts, r => ConflictDue name (fun _ => .check text) clause ts r
  | .foreign name, ts, r =>
    ∃ t us, ts = t :: us ∧ t.kind = .keyword .key ∧ ForeignOpenDue name us r
  | .foreignOpen name, ts, r => ForeignOpenDue name ts r
  | .foreignColumns name columns, ts, r => ForeignDue name columns ts r
  | .references name columns key, ts, r => TargetDue name columns key ts r

section

variable {name : OptionalName} {s s' : State} {t : Token} {ts : List Token} {r : Result}

/-- What is due behind the word of a rule is derived with the word. -/
theorem ruleDue_of_residual {word : Keyword} (hs : rule? name word = some s)
    (ht : t.kind = .keyword word) (hr : residual limits s ts r) :
    Ends (RuleDue limits name) (t :: ts) r.constraint r.heldNot := by
  unfold rule? at hs
  split at hs
  · obtain rfl := Option.some.inj hs
    obtain ⟨key, _, rfl, hkey, us, conflicts, columns, rfl, hcolumns, conflict, hconflict,
      rfl⟩ := hr
    exact .inl ⟨rfl, _, .primaryKey ht hkey hcolumns hconflict, rfl⟩
  · obtain rfl := Option.some.inj hs
    obtain ⟨us, conflicts, columns, rfl, hcolumns, conflict, hconflict, rfl⟩ := hr
    exact .inl ⟨rfl, _, .unique ht hcolumns hconflict, rfl⟩
  · obtain rfl := Option.some.inj hs
    obtain ⟨us, conflicts, text, rfl, htext, conflict, hconflict, rfl⟩ := hr
    exact .inl ⟨rfl, _, .check ht htext hconflict, rfl⟩
  · obtain rfl := Option.some.inj hs
    obtain ⟨key, _, rfl, hkey, opening, _, rfl, hopening, names, _, columns, rfl, hnames,
      references, us, rfl, hreferences, k, hk, rfl⟩ := hr
    obtain ⟨columns, hcolumns, rfl⟩ := hnames
    have hends : Ends (RuleDue limits name) _ { name, rule := .foreignKey columns k.key } _ :=
      hk.append (t :: key :: opening :: names ++ [references]) fun vs hvs =>
        ⟨_, by simpa using .foreignKey ht hkey hopening hcolumns hreferences hvs, rfl⟩
    simpa using hends
  · simp at hs

/-- What is due behind the first token of a constraint is derived with the token. -/
theorem derives_of_residual (hs : start? t = some s) (hr : residual limits s ts r) :
    Ends (Derives limits.maxExprDepth) (t :: ts) r.constraint r.heldNot := by
  unfold start? at hs
  split at hs
  · rename_i hword
    obtain rfl := Option.some.inj hs
    obtain ⟨u, us, name, rfl, hname, h⟩ := hr
    refine Ends.append [t, u] h ?_
    rintro vs ⟨rule, hrule, hc⟩
    exact hc ▸ .intro (.present hword hname) hrule
  · rename_i hword
    refine (ruleDue_of_residual hs hword hr).mono ?_
    rintro vs ⟨rule, hrule, hc⟩
    exact hc ▸ .intro .absent hrule
  · simp at hs

theorem residual_named {n : String} (h : step limits (.named n) t = .taken s)
    (hr : residual limits s ts r) : residual limits (.named n) (t :: ts) r := by
  simp only [step, afterName] at h
  split at h
  · rename_i hword
    split at h
    · rename_i hs
      obtain rfl := Verdict.taken.inj h
      exact ruleDue_of_residual hs hword hr
    · simp at h
  · simp at h

theorem residual_foreignColumns {columns : NameList.State}
    (h : step limits (.foreignColumns name columns) t = .taken s) (hr : residual limits s ts r) :
    ForeignDue name columns (t :: ts) r := by
  refine Sequel.of_andThen NameList.isResidual h ?_ fun columns h => ?_
  · rintro columns' rfl
    exact hr
  · obtain ⟨hreferences, rfl⟩ := takeKeyword_eq_taken.1 h
    exact ⟨t, ts, rfl, hreferences, hr⟩

theorem residual_references {columns : List String} {key : References.State}
    (h : step limits (.references name columns key) t = .taken s) (hr : residual limits s ts r) :
    TargetDue name columns key (t :: ts) r := by
  refine Last.of_taken References.isResidual h ?_
  rintro key' rfl
  exact hr

end

-- the conflict clause at the end of a key or a check, and what stands before it

section

variable {β τ : Type} {inner : τ → Token → Verdict τ β} {part : τ → List Token → β → Prop}
  {within : τ → State} {p : τ} {name : OptionalName} {s : State} {t : Token} {ts : List Token}
  {r : Result}

theorem residual_conflict {inClause : ConflictClause.State → State}
    {rule : ConflictResolution → TableConstraint.Rule} {clause : ConflictClause.State}
    (h : (ConflictClause.step clause t).andThen inClause
      (fun conflict => .complete ({ constraint := { name, rule := rule conflict } } : Result)) =
        .taken s)
    (hr : residual limits s ts r)
    (hclause : ∀ c, residual limits (inClause c) = ConflictDue name rule c) :
    ConflictDue name rule clause (t :: ts) r := by
  refine Last.of_taken ConflictClause.isResidual h ?_
  rintro clause' rfl
  rw [hclause] at hr
  exact hr

variable {inClause : β → ConflictClause.State → State}
  {rule : β → ConflictResolution → TableConstraint.Rule}

/-- The part goes on, or it is over one token before the conflict clause begins. -/
theorem residual_beforeConflict (hpart : IsResidual inner part)
    (h : (inner p t).andThen within (fun b => (ConflictClause.step .start t).andThen (inClause b)
      fun conflict => .complete ({ constraint := { name, rule := rule b conflict } } : Result)) =
        .taken s)
    (hr : residual limits s ts r)
    (hwithin : ∀ p', residual limits (within p') =
      Sequel (part p') fun b => ConflictDue name (rule b) .start)
    (hclause : ∀ b c, residual limits (inClause b c) = ConflictDue name (rule b) c) :
    Sequel (part p) (fun b => ConflictDue name (rule b) .start) (t :: ts) r := by
  refine Sequel.of_andThen hpart h ?_ fun b h => residual_conflict h hr (hclause b)
  rintro p' rfl
  rw [hwithin] at hr
  exact hr

theorem residual_beforeConflict_of_complete (hpart : IsResidual inner part)
    (h : (inner p t).andThen within (fun b => (ConflictClause.step .start t).andThen (inClause b)
      fun conflict => .complete ({ constraint := { name, rule := rule b conflict } } : Result)) =
        .complete r) :
    Sequel (part p) (fun b => ConflictDue name (rule b) .start) [] r := by
  obtain ⟨b, hb, h⟩ := Verdict.andThen_eq_complete.1 h
  exact ⟨[], [], b, rfl, hpart.complete hb, Last.of_complete ConflictClause.isResidual h⟩

end

theorem isResidual : IsResidual (step limits) (residual limits) where
  taken {s s' t ts r} h hr := by
    cases s with
    | name =>
      obtain ⟨name, hname, rfl⟩ := takeName_eq_taken.1 h
      exact ⟨t, ts, name, rfl, hname, hr⟩
    | named name => exact residual_named h hr
    | primary name =>
      obtain ⟨hkey, rfl⟩ := takeKeyword_eq_taken.1 h
      exact ⟨t, ts, rfl, hkey, hr⟩
    | primaryColumns name columns =>
      exact residual_beforeConflict IndexedColumns.isResidual h hr (fun _ => rfl) fun _ _ => rfl
    | uniqueColumns name columns =>
      exact residual_beforeConflict IndexedColumns.isResidual h hr (fun _ => rfl) fun _ _ => rfl
    | check name expression =>
      exact residual_beforeConflict Expression.isResidual h hr (fun _ => rfl) fun _ _ => rfl
    | primaryConflict _ _ _ | uniqueConflict _ _ _ | checkConflict _ _ _ =>
      exact residual_conflict h hr fun _ => rfl
    | foreign name =>
      obtain ⟨hkey, rfl⟩ := takeKeyword_eq_taken.1 h
      exact ⟨t, ts, rfl, hkey, hr⟩
    | foreignOpen name =>
      obtain ⟨hopening, rfl⟩ := takeKind_eq_taken.1 h
      exact ⟨t, ts, rfl, hopening, hr⟩
    | foreignColumns name columns => exact residual_foreignColumns h hr
    | references name columns key => exact residual_references h hr
  complete {s t r} h := by
    cases s with
    | name | primary _ | foreign _ | foreignOpen _ => simp [step] at h
    | named name =>
      simp only [step, afterName] at h
      split at h
      · split at h <;> simp at h
      · simp at h
    | primaryColumns _ _ | uniqueColumns _ _ =>
      exact residual_beforeConflict_of_complete IndexedColumns.isResidual h
    | check _ _ => exact residual_beforeConflict_of_complete Expression.isResidual h
    | primaryConflict _ _ _ | uniqueConflict _ _ _ | checkConflict _ _ _ =>
      exact Last.of_complete ConflictClause.isResidual h
    | foreignColumns name columns =>
      obtain ⟨columns, -, h⟩ := Verdict.andThen_eq_complete.1 h
      simp at h
    | references name columns key => exact Last.of_complete References.isResidual h

-- ════════════════════════════════════════════════════════════════════════
-- What is derived is taken
-- ════════════════════════════════════════════════════════════════════════

variable {name : OptionalName} {e : Token} {ts us : List Token}

/-- A conflict clause at the end of a constraint is taken, where it may begin in a state before. -/
private theorem leads_conflict {f : ConflictResolution → Result}
    (within : ConflictClause.State → State) {conflict : ConflictResolution}
    (hstep : ∀ clause t, step limits (within clause) t =
      (ConflictClause.step clause t).andThen within fun conflict => .complete (f conflict))
    (h : ConflictClause.Derives ts conflict) (he : e.continuesClause = false) :
    Leads (step limits)
      ((ConflictClause.step .start (ts.headD e)).andThen within
        fun conflict => .complete (f conflict)) ts e (f conflict) := by
  rw [← hstep, ← accepts_iff_leads]
  exact Accepts.last_part (fun conflict _ => .complete (f conflict)) hstep
    (ConflictClause.accepts_of_derives h
      (ColumnConstraint.kind_ne_on_of_not_continuesClause he)) rfl

/-- A rule begins with a word, and behind it the rest is taken. -/
private theorem stops_of_demands {rule : TableConstraint.Rule}
    (h : Demands limits.maxExprDepth ts rule) (name : OptionalName)
    (he : e.continuesClause = false) :
    ∃ t us word s, ts = t :: us ∧ t.kind = .keyword word ∧ rule? name word = some s ∧
      Stops (step limits) s us e fun heldNot => { constraint := { name, rule }, heldNot } := by
  cases h with
  | primaryKey hprimary hkey hcolumns hconflicts =>
    refine ⟨_, _, .primary, .primary name, rfl, hprimary, rfl, .inl ?_⟩
    refine Accepts.take (n := .primaryColumns name .opening)
      (by simp [step, takeKeyword, takeKind, hkey]) ?_
    refine Accepts.part IndexedColumns.step
      (fun columns => primaryConflict name columns .start) (fun _ _ => rfl)
      (IndexedColumns.accepts_of_derives hcolumns _) ?_
    exact leads_conflict (.primaryConflict name _) (fun _ _ => rfl) hconflicts he
  | unique hunique hcolumns hconflicts =>
    refine ⟨_, _, .unique, .uniqueColumns name .opening, rfl, hunique, rfl, .inl ?_⟩
    refine Accepts.part IndexedColumns.step
      (fun columns => uniqueConflict name columns .start) (fun _ _ => rfl)
      (IndexedColumns.accepts_of_derives hcolumns _) ?_
    exact leads_conflict (.uniqueConflict name _) (fun _ _ => rfl) hconflicts he
  | check hcheck htext hconflicts =>
    refine ⟨_, _, .check, .check name .opening, rfl, hcheck, rfl, .inl ?_⟩
    refine Accepts.part (Expression.step limits)
      (fun text => checkConflict name text .start) (fun _ _ => rfl)
      (Expression.accepts_of_derives htext _) ?_
    exact leads_conflict (.checkConflict name _) (fun _ _ => rfl) hconflicts he
  | @foreignKey foreign key opening references names us columns target hforeign hkey hopening
      hnames hreferences hus =>
    refine ⟨foreign, _, .foreign, .foreign name, rfl, hforeign, rfl, ?_⟩
    have htarget : Stops (step limits) (.references name columns .table) us e fun heldNot =>
        { constraint := { name, rule := .foreignKey columns target }, heldNot } :=
      Stops.last_part
        (fun k _ => .complete
          { constraint := { name, rule := .foreignKey columns k.key }, heldNot := k.heldNot })
        (fun _ _ => rfl) (References.stops_of_derives hus he) fun _ _ => rfl
    -- what stands before the key is taken whether or not the key ends in a `NOT` that is held
    have hfront : ∀ {vs e r}, Accepts (step limits) (.references name columns .table) vs e r →
        Accepts (step limits) (.foreign name) (key :: opening :: names ++ references :: vs) e
          r := by
      intro vs e r h
      refine Accepts.take (n := .foreignOpen name)
        (by simp [step, takeKeyword, takeKind, hkey]) ?_
      refine Accepts.take (n := .foreignColumns name (.name []))
        (by simp [step, takeKind, hopening]) ?_
      refine Accepts.part (NameList.step .column .closeAfterForeignKey)
        (fun columns t =>
          takeKeyword t .references .references (.references name columns .table))
        (fun _ _ => rfl) (NameList.accepts_of_derives hnames [] _) ?_
      exact ⟨_, by simp [takeKeyword, takeKind, hreferences], h⟩
    obtain h | ⟨hnot, h⟩ := htarget
    · exact .inl (hfront h)
    · refine .inr ⟨hnot, fun e' he' => ?_⟩
      have := hfront (h e' he')
      simpa using this

/-- A constraint begins with a word, and behind it the rest is taken. -/
theorem stops_of_derives {constraint : CreateTable.TableConstraint}
    (h : Derives limits.maxExprDepth ts constraint) (he : e.continuesClause = false) :
    ∃ t us s, ts = t :: us ∧ start? t = some s ∧
      Stops (step limits) s us e fun heldNot => { constraint, heldNot } := by
  obtain @⟨names, ts, name, rule, hnames, hrule⟩ := h
  obtain ⟨t, us, word, s, rfl, hword, hs, hus⟩ := stops_of_demands hrule name he
  cases hnames with
  | absent =>
    refine ⟨t, us, s, rfl, ?_, hus⟩
    unfold start?
    cases word <;> simp_all [rule?]
  | @present first u name hfirst hu =>
    refine ⟨first, _, .name, rfl, by simp [start?, hfirst], ?_⟩
    have hfront : ∀ {vs e r}, Accepts (step limits) s vs e r →
        Accepts (step limits) .name (u :: t :: vs) e r := by
      intro vs e r h
      refine Accepts.take (n := .named name) (by simp [step, takeName, hu]) ?_
      exact Accepts.take (by simp [step, afterName, hword, hs]) h
    obtain h | ⟨hnot, h⟩ := hus
    · exact .inl (hfront h)
    · exact .inr ⟨hnot, fun e' he' => hfront (h e' he')⟩

end CreateTable.Grammar.TableConstraint
