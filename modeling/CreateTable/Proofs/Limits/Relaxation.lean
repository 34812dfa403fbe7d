import CreateTable.Proofs.Reading

/-!
# Looser limits

A reader with looser limits does what the one with tighter limits does, until a limit stops that
one. Two runs on one text are compared step by step.

## Main definitions

- `LE Limits` — each limit is at most the other
- `Verdict.Relaxes` — verdicts that are the same unless a limit is exceeded
- `Body.State.Roomier` — states that differ in how many more columns are allowed

## Main statements

- `Statement.step_relaxes` — one step of the reader
- `Reader.runFrom_relaxes` — a whole run
- `parse_of_le` — what is not refused for a limit does not depend on the limits
-/

namespace CreateTable

namespace Limits

/-- Each limit is at most the other. -/
instance : LE Limits :=
  ⟨fun l l' => l.maxSqlLength ≤ l'.maxSqlLength ∧ l.maxColumns ≤ l'.maxColumns ∧
    l.maxExprDepth ≤ l'.maxExprDepth⟩

variable {limits limits' : Limits}

theorem le_def : limits ≤ limits' ↔ limits.maxSqlLength ≤ limits'.maxSqlLength ∧
    limits.maxColumns ≤ limits'.maxColumns ∧ limits.maxExprDepth ≤ limits'.maxExprDepth :=
  Iff.rfl

end Limits

-- ════════════════════════════════════════════════════════════════════════
-- Verdicts
-- ════════════════════════════════════════════════════════════════════════

/-- The second verdict is the first one, with states that are related, unless the first refuses a
    token because of a limit. -/
inductive Verdict.Relaxes {σ τ α : Type} (R : σ → τ → Prop) : Verdict σ α → Verdict τ α → Prop
  | taken {s : σ} {s' : τ} : R s s' → Relaxes R (taken s) (taken s')
  | complete (a : α) : Relaxes R (complete a) (complete a)
  | refused (e : ParseError) : Relaxes R (refused e) (refused e)
  | exhausted {e : ParseError} {v : Verdict τ α} :
    e.cause.kind = .exhausted → Relaxes R (refused e) v

namespace Verdict

variable {σ σ' τ τ' α β : Type} {R : σ → τ → Prop} {Q : σ' → τ' → Prop}

theorem relaxes_refl {R : σ → σ → Prop} (hR : ∀ s, R s s) (v : Verdict σ α) : Relaxes R v v := by
  cases v with
  | taken s => exact .taken (hR s)
  | complete a => exact .complete a
  | refused e => exact .refused e

/-- A reader is relaxed where its part is, in the part and behind it. -/
theorem Relaxes.andThen {v : Verdict σ α} {v' : Verdict τ α} {within : σ → σ'} {within' : τ → τ'}
    {after : α → Verdict σ' β} {after' : α → Verdict τ' β} (h : Relaxes R v v')
    (hin : ∀ s s', R s s' → Q (within s) (within' s'))
    (hout : ∀ a, Relaxes Q (after a) (after' a)) :
    Relaxes Q (v.andThen within after) (v'.andThen within' after') := by
  cases h with
  | taken hs => exact .taken (hin _ _ hs)
  | complete a => exact hout a
  | refused e => exact .refused e
  | exhausted he => exact .exhausted he

end Verdict

namespace Reader

variable {σ τ α : Type} {r : Reader σ α} {r' : Reader τ α} {R : σ → τ → Prop} {s : σ} {s' : τ}
  {c : Lexical.Cursor}

/-- If one step of a reader is relaxed, then so is a run: it ends the same way, unless the tighter
    one exceeds a limit. -/
theorem runFrom_relaxes (hstep : ∀ s s' t, R s s' → (r.step s t).Relaxes R (r'.step s' t))
    (hs : R s s') (h : ∀ e, r.runFrom s c = .error e → e.cause.kind ≠ .exhausted) :
    r'.runFrom s' c = r.runFrom s c := by
  -- every token that is taken leaves a shorter rest
  induction hn : c.rest.length using Nat.strongRecOn generalizing c s s' with
  | _ n ih =>
    match hnext : c.next with
    | (.error e, c') => rw [runFrom_of_next_error hnext, runFrom_of_next_error hnext]
    | (.ok t, c') =>
      have hverdicts := hstep s s' t hs
      generalize hv : r.step s t = v, hv' : r'.step s' t = v' at hverdicts
      cases hverdicts with
      | @taken s₁ s₁' hs₁ =>
        have hlt := Lexical.Cursor.length_rest_next_lt hnext (r.step_sparesEnd s t s₁ hv)
        rw [runFrom_of_taken hnext hv] at h ⊢
        rw [runFrom_of_taken hnext hv']
        exact ih _ (hn ▸ hlt) hs₁ h rfl
      | complete a => rw [runFrom_of_complete hnext hv, runFrom_of_complete hnext hv']
      | refused e => rw [runFrom_of_refused hnext hv, runFrom_of_refused hnext hv']
      | exhausted he => exact absurd he (h _ (runFrom_of_refused hnext hv))

end Reader

-- ════════════════════════════════════════════════════════════════════════
-- Steps
-- ════════════════════════════════════════════════════════════════════════

namespace Grammar

open Verdict

variable {limits limits' : Limits}

theorem Expression.step_relaxes (h : limits ≤ limits') (s : State) (t : Token) :
    (step limits s t).Relaxes Eq (step limits' s t) := by
  obtain ⟨-, -, hdepth⟩ := h
  cases s with
  | opening => exact relaxes_refl (fun _ => rfl) _
  | inside nested read =>
    unfold step
    dsimp only
    split
    · exact .refused _
    · split
      · rw [if_pos (by omega)]
        exact .taken rfl
      · exact .exhausted rfl
    · exact .taken rfl
    · exact .taken rfl
    · exact .taken rfl
  | closed text => exact .complete text
  | empty close => exact relaxes_refl (fun _ => rfl) _

theorem ColumnConstraint.step_relaxes (h : limits ≤ limits') (s : State) (t : Token) :
    (step limits s t).Relaxes Eq (step limits' s t) := by
  -- only expressions have a limit
  cases s with
  | check expression =>
    exact (Expression.step_relaxes h expression t).andThen (fun _ _ hs => hs ▸ rfl)
      fun _ => .complete _
  | expression expression =>
    exact (Expression.step_relaxes h expression t).andThen (fun _ _ hs => hs ▸ rfl)
      fun _ => .complete _
  | _ => exact relaxes_refl (fun _ => rfl) _

theorem Column.step_relaxes (h : limits ≤ limits') (s : State) (t : Token) :
    (step limits s t).Relaxes Eq (step limits' s t) := by
  cases s with
  | constraint column constraint =>
    exact (ColumnConstraint.step_relaxes h constraint t).andThen (fun _ _ hs => hs ▸ rfl)
      fun _ => relaxes_refl (fun _ => rfl) _
  | _ => exact relaxes_refl (fun _ => rfl) _

theorem TableConstraint.step_relaxes (h : limits ≤ limits') (s : State) (t : Token) :
    (step limits s t).Relaxes Eq (step limits' s t) := by
  cases s with
  | check name expression =>
    exact (Expression.step_relaxes h expression t).andThen (fun _ _ hs => hs ▸ rfl)
      fun _ => relaxes_refl (fun _ => rfl) _
  | _ => exact relaxes_refl (fun _ => rfl) _

namespace Body

/-- The same progress with at least as much room for columns. -/
def Progress.Roomier (p p' : Progress) : Prop := p.room ≤ p'.room ∧ p' = { p with room := p'.room }

/-- The same state with at least as much room for columns. -/
inductive State.Roomier : State → State → Prop
  | start : Roomier .start .start
  | item {p p' : Progress} : p.Roomier p' → Roomier (.item p) (.item p')
  | column {p p' : Progress} (column : Column.State) :
    p.Roomier p' → Roomier (.column p column) (.column p' column)
  | constraint {p p' : Progress} (constraint : TableConstraint.State) :
    p.Roomier p' → Roomier (.constraint p constraint) (.constraint p' constraint)
  | closed (items : Items) : Roomier (.closed items) (.closed items)

theorem State.Roomier.refl (s : State) : s.Roomier s := by
  have hp : ∀ p : Progress, p.Roomier p := fun _ => ⟨Nat.le_refl _, rfl⟩
  cases s with
  | start => exact .start
  | item p => exact .item (hp p)
  | column p column => exact .column column (hp p)
  | constraint p constraint => exact .constraint constraint (hp p)
  | closed items => exact .closed items

variable {p p' : Progress} {t : Token}

theorem Progress.Roomier.addColumn (h : p.Roomier p') (c : CreateTable.Column) :
    (p.addColumn c).Roomier (p'.addColumn c) := by
  obtain ⟨hroom, hp⟩ := h
  refine ⟨?_, ?_⟩
  · simp only [Progress.addColumn]
    omega
  · rw [hp]
    rfl

theorem Progress.Roomier.addConstraint (h : p.Roomier p') (c : CreateTable.TableConstraint) :
    (p.addConstraint c).Roomier (p'.addConstraint c) := by
  obtain ⟨hroom, hp⟩ := h
  refine ⟨hroom, ?_⟩
  rw [hp]
  rfl

theorem Progress.Roomier.start (h : limits ≤ limits') (t : Token) :
    (Progress.start limits t).Roomier (Progress.start limits' t) :=
  ⟨h.2.1, rfl⟩

theorem requireColumn_relaxes (h : p.Roomier p') {v v' : Verdict State Items}
    (hv : v.Relaxes State.Roomier v') :
    (requireColumn p v).Relaxes State.Roomier (requireColumn p' v') := by
  obtain ⟨-, hp⟩ := h
  rw [hp]
  unfold requireColumn
  split
  · exact .refused _
  · exact hv

theorem finish_relaxes (h : p.Roomier p') (t : Token) :
    (finish p t).Relaxes State.Roomier (finish p' t) := by
  have hitems : p'.items = p.items := by
    rw [h.2]
    rfl
  refine requireColumn_relaxes h ?_
  rw [hitems]
  unfold takeKind
  split
  · exact .taken (.closed _)
  · exact .refused _

theorem beginColumn_relaxes (h : p.Roomier p') (t : Token) :
    (beginColumn limits p t).Relaxes State.Roomier (beginColumn limits' p' t) := by
  have hroom := h.1
  unfold beginColumn
  split
  · exact .exhausted rfl
  · rw [if_neg (by omega)]
    unfold takeName
    split
    · exact .taken (.column _ h)
    · exact .refused _

theorem item_relaxes (h : p.Roomier p') (t : Token) :
    (item limits p t).Relaxes State.Roomier (item limits' p' t) := by
  have hcolumns : p'.columns = p.columns := by rw [h.2]
  have hconstraints : p'.constraints = p.constraints := by rw [h.2]
  unfold item
  rw [hcolumns, hconstraints]
  split
  · exact finish_relaxes h t
  · split
    · exact .taken (.constraint _ h)
    · split
      · exact beginColumn_relaxes h t
      · exact .refused _

theorem afterColumn_relaxes (h : p.Roomier p') (t : Token) :
    (afterColumn p t).Relaxes State.Roomier (afterColumn p' t) := by
  unfold afterColumn
  split
  · exact .taken (.item h)
  · exact finish_relaxes h t

theorem afterConstraint_relaxes (h : p.Roomier p') (t : Token) :
    (afterConstraint p t).Relaxes State.Roomier (afterConstraint p' t) := by
  unfold afterConstraint
  split
  · exact .taken (.constraint _ h)
  · exact afterColumn_relaxes h t

theorem step_relaxes (h : limits ≤ limits') {s s' : State} (hs : s.Roomier s') (t : Token) :
    (step limits s t).Relaxes State.Roomier (step limits' s' t) := by
  cases hs with
  | start => exact item_relaxes (.start h t) t
  | item hp => exact item_relaxes hp t
  | column column hp =>
    refine (Column.step_relaxes h column t).andThen ?_ fun c => ?_
    · rintro column' _ rfl
      exact .column column' hp
    · exact afterColumn_relaxes (hp.addColumn c) t
  | constraint constraint hp =>
    refine (TableConstraint.step_relaxes h constraint t).andThen ?_ fun r => ?_
    · rintro constraint' _ rfl
      exact .constraint constraint' hp
    · split
      · exact afterConstraint_relaxes (hp.addConstraint r.constraint) t
      · exact requireColumn_relaxes (hp.addConstraint r.constraint) (.refused _)
  | closed items => exact .complete items

end Body

namespace Statement

/-- The same state with at least as much room for columns. -/
inductive State.Roomier : State → State → Prop
  | same (s : State) : Roomier s s
  | body (table : Table) {body body' : Body.State} :
    body.Roomier body' → Roomier (.body table body) (.body table body')

theorem step_relaxes (h : limits ≤ limits') {s s' : State} (hs : s.Roomier s') (t : Token) :
    (step limits s t).Relaxes State.Roomier (step limits' s' t) := by
  have hbody : ∀ {body body' : Body.State} (table : Table), body.Roomier body' →
      (step limits (.body table body) t).Relaxes State.Roomier
        (step limits' (.body table body') t) := by
    intro body body' table hbody
    exact (Body.step_relaxes h hbody t).andThen (fun _ _ hs => .body table hs)
      fun _ => relaxes_refl .same _
  cases hs with
  | same s =>
    cases s with
    | body table body => exact hbody table (.refl body)
    | _ => exact relaxes_refl .same _
  | body table hs => exact hbody table hs

end Statement

end Grammar

-- ════════════════════════════════════════════════════════════════════════
-- Statements
-- ════════════════════════════════════════════════════════════════════════

open Grammar

variable {limits limits' : Limits} {sql : String}

/-- A run that does not end because of a limit is the same with looser limits. -/
theorem statementReader_run_of_le {text : List Char} (hle : limits ≤ limits')
    (h : ∀ e, (statementReader limits).run text = .error e → e.cause.kind ≠ .exhausted) :
    (statementReader limits').run text = (statementReader limits).run text :=
  Reader.runFrom_relaxes (fun _ _ t hs => Statement.step_relaxes hle hs t) (.same .start) h

/-- Two limits are at most some third. -/
theorem Limits.exists_ge (limits limits' : Limits) : ∃ looser, limits ≤ looser ∧ limits' ≤ looser :=
  ⟨⟨max limits.maxSqlLength limits'.maxSqlLength, max limits.maxColumns limits'.maxColumns,
    max limits.maxExprDepth limits'.maxExprDepth⟩,
    ⟨Nat.le_max_left _ _, Nat.le_max_left _ _, Nat.le_max_left _ _⟩,
    Nat.le_max_right _ _, Nat.le_max_right _ _, Nat.le_max_right _ _⟩

/-- A text that is refused for something else is not refused for a limit. -/
theorem not_exhausted_of_error {e : ParseError} (h : parse limits sql = .error e)
    (he : e.cause.kind ≠ .exhausted) :
    ∀ e', parse limits sql = .error e' → e'.cause.kind ≠ .exhausted := by
  intro e' he'
  obtain rfl := Except.error.inj (h.symm.trans he')
  exact he

/-- A text that is not refused for a limit is short enough. -/
theorem length_le_of_not_exhausted
    (h : ∀ e, parse limits sql = .error e → e.cause.kind ≠ .exhausted) :
    sql.utf8ByteSize ≤ limits.maxSqlLength :=
  Nat.le_of_not_lt fun hlength => h _ (parse_of_lt_length hlength) rfl

/-- What is parsed is parsed with looser limits. -/
theorem parse_ok_of_le {table : Table} (h : parse limits sql = .ok table) (hle : limits ≤ limits') :
    parse limits' sql = .ok table := by
  obtain ⟨hlength, hrun⟩ := parse_eq_ok.1 h
  have hspare : ∀ e, (statementReader limits).run sql.toList = .error e →
      e.cause.kind ≠ .exhausted := fun e he => nomatch hrun.symm.trans he
  refine parse_eq_ok.2 ⟨Nat.le_trans hlength hle.1, ?_⟩
  rw [statementReader_run_of_le hle hspare]
  exact hrun

/-- An error that is not about a limit is the same with looser limits. -/
theorem parse_error_of_le {e : ParseError} (h : parse limits sql = .error e)
    (he : e.cause.kind ≠ .exhausted) (hle : limits ≤ limits') : parse limits' sql = .error e := by
  have hspare := not_exhausted_of_error h he
  have hlength := length_le_of_not_exhausted hspare
  rw [parse_of_length_le hlength] at h hspare
  rw [parse_of_length_le (Nat.le_trans hlength hle.1), statementReader_run_of_le hle hspare, h]

/-- What is refused, and not for a limit, is not parsed with any limits. -/
theorem parse_ne_ok_of_error {e : ParseError} {table : Table} (h : parse limits sql = .error e)
    (he : e.cause.kind ≠ .exhausted) : parse limits' sql ≠ .ok table := by
  intro hparse
  obtain ⟨looser, hle, hle'⟩ := Limits.exists_ge limits limits'
  cases (parse_error_of_le h he hle).symm.trans (parse_ok_of_le hparse hle')

/-- What is not refused for a limit is read the same way with looser limits: the same table, or the
    same error at the same place. -/
theorem parse_of_le (hle : limits ≤ limits')
    (h : ∀ e, parse limits sql = .error e → e.cause.kind ≠ .exhausted) :
    parse limits' sql = parse limits sql := by
  by_cases hlength : sql.utf8ByteSize ≤ limits.maxSqlLength
  · have hlength' : sql.utf8ByteSize ≤ limits'.maxSqlLength := Nat.le_trans hlength hle.1
    rw [parse_of_length_le hlength] at h ⊢
    rw [parse_of_length_le hlength']
    exact Reader.runFrom_relaxes (fun _ _ t hs => Statement.step_relaxes hle hs t) (.same .start) h
  · exact absurd rfl (h _ (parse_of_lt_length (Nat.not_le.1 hlength)))

/-- A statement that keeps to the tightest limits for it. -/
theorem parse_of_le_tight :
    parse {} "CREATE TABLE t(a CHECK(x))" =
      parse { maxSqlLength := 26, maxColumns := 1, maxExprDepth := 1 }
        "CREATE TABLE t(a CHECK(x))" := by
  refine parse_of_le ?_ fun e he => ?_
  · rw [Limits.le_def]
    decide
  · have hparsed : (parse { maxSqlLength := 26, maxColumns := 1, maxExprDepth := 1 }
        "CREATE TABLE t(a CHECK(x))").toOption.isSome := by
      rw [parse_eq_run]
      decide +kernel
    rw [he] at hparsed
    cases hparsed

end CreateTable
