import CreateTable.Proofs.Grammar.References

/-!
# The reader of column constraints

What is read behind the first word of a column constraint is what the rule derives behind it.

## Main definitions

- `ColumnConstraint.residual` — what is due in each state of the reader

## Main statements

- `ColumnConstraint.derives_of_residual` — what is due behind a first word is derived with it
- `ColumnConstraint.stops_of_derives` — what is derived is taken
-/

namespace CreateTable.Grammar.ColumnConstraint

variable {limits : Limits}

theorem isLiteral_iff {t : Token} : isLiteral t ↔ t.kind = .number ∨ IsLiteral t := by
  simp [isLiteral, IsLiteral, or_assoc]

theorem verbatim_singleton (t : Token) : Token.verbatim [t] = t.source := by
  simp [Token.verbatim, Token.source]

/-- What is due from the conflict clause of a primary key on. -/
def KeyConflictDue (clause : ConflictClause.State) (order : SortOrder) :
    List Token → Result → Prop :=
  Sequel (ConflictClause.residual clause) fun conflict =>
    Last Autoincrement fun autoincrement =>
      { constraint := .primaryKey order conflict autoincrement }

/-- What is due behind `PRIMARY KEY`. -/
def OrderDue : List Token → Result → Prop :=
  Sequel SortClause.Derives (KeyConflictDue .start)

/-- The tokens due in a state, and the constraint that they end. -/
def residual (limits : Limits) : State → List Token → Result → Prop
  | .key, ts, r => ∃ t us, ts = t :: us ∧ t.kind = .keyword .key ∧ OrderDue us r
  | .order, ts, r => OrderDue ts r
  | .keyConflict order clause, ts, r => KeyConflictDue clause order ts r
  | .null, ts, r =>
    ∃ t us, ts = t :: us ∧ t.kind = .keyword .null ∧
      Last ConflictClause.Derives (fun conflict => { constraint := .notNull conflict }) us r
  | .notNull clause, ts, r =>
    Last (ConflictClause.residual clause) (fun conflict => { constraint := .notNull conflict }) ts r
  | .nullable clause, ts, r =>
    Last (ConflictClause.residual clause) (fun _ => { constraint := .null }) ts r
  | .unique clause, ts, r =>
    Last (ConflictClause.residual clause) (fun conflict => { constraint := .unique conflict }) ts r
  | .check expression, ts, r =>
    Last (Expression.residual limits expression) (fun text => { constraint := .check text }) ts r
  | .default, ts, r =>
    ∃ value, r = { constraint := .default value } ∧
      ∀ word : Token, word.kind = .keyword .default →
        Derives limits.maxExprDepth (word :: ts) (.default value)
  | .number number, ts, r =>
    Last (SignedNumber.residual number)
      (fun tokens => { constraint := .default (Token.verbatim tokens) }) ts r
  | .expression expression, ts, r =>
    Last (Expression.residual limits expression) (fun text => { constraint := .default text }) ts r
  | .collation, ts, r =>
    ∃ t name, ts = [t] ∧ t.name? = some name ∧ r = { constraint := .collate name }
  | .references key, ts, r =>
    Last (References.residual key)
      (fun k => { constraint := .references k.key, heldNot := k.heldNot }) ts r
  | .closed constraint, ts, r => ts = [] ∧ r = { constraint }

section

variable {order : SortOrder} {clause : ConflictClause.State} {s : State} {t : Token}
  {ts : List Token} {r : Result}

theorem residual_keyConflict (h : keyConflict order clause t = .taken s)
    (hr : residual limits s ts r) : KeyConflictDue clause order (t :: ts) r := by
  refine Sequel.of_andThen ConflictClause.isResidual h ?_ ?_
  · rintro clause' rfl
    exact hr
  · intro conflict h
    split at h
    · rename_i hword
      obtain rfl := Verdict.taken.inj h
      obtain ⟨rfl, rfl⟩ := hr
      exact ⟨true, .present (Token.isKeyword_iff.1 hword), rfl⟩
    · simp at h

theorem residual_of_keyConflict_complete (h : keyConflict order clause t = .complete r) :
    KeyConflictDue clause order [] r := by
  obtain ⟨conflict, hconflict, h⟩ := Verdict.andThen_eq_complete.1 h
  split at h
  · simp at h
  · obtain rfl := Verdict.complete.inj h
    exact ⟨[], [], conflict, rfl, ConflictClause.isResidual.complete hconflict, false, .absent, rfl⟩

theorem residual_default (h : default t = .taken s) (hr : residual limits s ts r) :
    residual limits .default (t :: ts) r := by
  unfold default at h
  split at h
  · rename_i hopening
    obtain rfl := Verdict.taken.inj h
    obtain ⟨text, htext, rfl⟩ := hr
    refine ⟨text, rfl, fun word hword => .defaultExpression hword ?_⟩
    have hstep : Expression.step limits .opening t = .taken (.inside 0 []) := by
      simp [Expression.step, hopening]
    exact Expression.isResidual.taken hstep htext
  · obtain ⟨number, hnumber, rfl⟩ | ⟨_, _, h⟩ := Verdict.andThen_eq_taken.1 h
    · obtain ⟨tokens, htokens, rfl⟩ := hr
      obtain ⟨hderives, rfl⟩ := SignedNumber.isResidual.taken hnumber htokens
      exact ⟨_, rfl, fun word hword => .defaultNumber hword hderives⟩
    · simp at h
  · split at h
    · rename_i hliteral
      obtain rfl := Verdict.taken.inj h
      obtain ⟨rfl, rfl⟩ := hr
      refine ⟨_, rfl, fun word hword => ?_⟩
      obtain hnumber | hliteral := isLiteral_iff.1 hliteral
      · exact verbatim_singleton t ▸ .defaultNumber hword (.plain hnumber)
      · exact .defaultLiteral hword hliteral
    · simp at h

theorem default_ne_complete : default t ≠ .complete r := by
  unfold default
  split
  · simp
  · intro h
    obtain ⟨number, hnumber, -⟩ := Verdict.andThen_eq_complete.1 h
    simp only [SignedNumber.step] at hnumber
    split at hnumber
    · simp at hnumber
    · split at hnumber <;> simp at hnumber
  · split <;> simp

end

theorem isResidual : IsResidual (step limits) (residual limits) where
  taken {s s' t ts r} h hr := by
    cases s with
    | key =>
      obtain ⟨hkey, rfl⟩ := takeKeyword_eq_taken.1 h
      exact ⟨t, ts, rfl, hkey, hr⟩
    | order =>
      simp only [step] at h
      split at h
      · rename_i order horder
        obtain rfl := Verdict.taken.inj h
        exact ⟨[t], ts, order, rfl, .present horder, hr⟩
      · exact ⟨[], t :: ts, .unspecified, rfl, .absent, residual_keyConflict h hr⟩
    | keyConflict order clause => exact residual_keyConflict h hr
    | null =>
      obtain ⟨hnull, rfl⟩ := takeKeyword_eq_taken.1 h
      exact ⟨t, ts, rfl, hnull, hr⟩
    | notNull _ | nullable _ | unique _ =>
      refine Last.of_taken ConflictClause.isResidual h ?_
      rintro clause' rfl
      exact hr
    | check _ | expression _ =>
      refine Last.of_taken Expression.isResidual h ?_
      rintro expression' rfl
      exact hr
    | default => exact residual_default h hr
    | number number =>
      refine Last.of_taken SignedNumber.isResidual h ?_
      rintro number' rfl
      exact hr
    | collation =>
      obtain ⟨name, hname, rfl⟩ := takeName_eq_taken.1 h
      obtain ⟨rfl, rfl⟩ := hr
      exact ⟨t, name, rfl, hname, rfl⟩
    | references key =>
      refine Last.of_taken References.isResidual h ?_
      rintro key' rfl
      exact hr
    | closed constraint => simp [step] at h
  complete {s t r} h := by
    cases s with
    | key => simp [step] at h
    | order =>
      simp only [step] at h
      split at h
      · simp at h
      · exact ⟨[], [], .unspecified, rfl, .absent, residual_of_keyConflict_complete h⟩
    | keyConflict order clause => exact residual_of_keyConflict_complete h
    | null => simp [step] at h
    | notNull _ | nullable _ | unique _ => exact Last.of_complete ConflictClause.isResidual h
    | check _ | expression _ => exact Last.of_complete Expression.isResidual h
    | default => exact absurd h default_ne_complete
    | number number => exact Last.of_complete SignedNumber.isResidual h
    | collation => simp [step] at h
    | references key => exact Last.of_complete References.isResidual h
    | closed constraint =>
      obtain rfl := Verdict.complete.inj h
      exact ⟨rfl, rfl⟩

/-- What is due behind the first word of a constraint is derived behind it. -/
theorem derives_of_residual {word : Keyword} {s : State} {t : Token} {ts : List Token} {r : Result}
    (hs : start? word = some s) (ht : t.kind = .keyword word) (hr : residual limits s ts r) :
    Ends (Derives limits.maxExprDepth) (t :: ts) r.constraint r.heldNot := by
  unfold start? at hs
  split at hs
  · obtain rfl := Option.some.inj hs
    obtain ⟨key, _, rfl, hkey, orders, _, order, rfl, horder, conflicts, autos, conflict, rfl,
      hconflict, auto, hauto, rfl⟩ := hr
    refine .inl ⟨rfl, ?_⟩
    have hderives : Derives limits.maxExprDepth _ (.primaryKey order conflict auto) :=
      .primaryKey ht hkey horder hconflict hauto
    simpa using hderives
  · obtain rfl := Option.some.inj hs
    obtain ⟨null, us, rfl, hnull, conflict, hconflict, rfl⟩ := hr
    exact .inl ⟨rfl, .notNull ht hnull hconflict⟩
  · obtain rfl := Option.some.inj hs
    obtain ⟨conflict, hconflict, rfl⟩ := hr
    exact .inl ⟨rfl, .null ht hconflict⟩
  · obtain rfl := Option.some.inj hs
    obtain ⟨conflict, hconflict, rfl⟩ := hr
    exact .inl ⟨rfl, .unique ht hconflict⟩
  · obtain rfl := Option.some.inj hs
    obtain ⟨text, htext, rfl⟩ := hr
    exact .inl ⟨rfl, .check ht htext⟩
  · obtain rfl := Option.some.inj hs
    obtain ⟨value, rfl, hvalue⟩ := hr
    exact .inl ⟨rfl, hvalue t ht⟩
  · obtain rfl := Option.some.inj hs
    obtain ⟨u, name, rfl, hname, rfl⟩ := hr
    exact .inl ⟨rfl, .collate ht hname⟩
  · obtain rfl := Option.some.inj hs
    obtain ⟨k, hk, rfl⟩ := hr
    exact Ends.append [t] hk fun us hus => .references ht hus
  · simp at hs

-- ════════════════════════════════════════════════════════════════════════
-- What is derived is taken
-- ════════════════════════════════════════════════════════════════════════

variable {e : Token}

theorem kind_ne_on_of_not_continuesClause (he : e.continuesClause = false) :
    e.kind ≠ .keyword .on := by
  intro hkind
  simp [Token.continuesClause, hkind] at he

/-- A conflict clause at the end of a constraint is taken. -/
private theorem accepts_conflict {ts : List Token} {conflict : ConflictResolution}
    (within : ConflictClause.State → State) {f : ConflictResolution → Result}
    (hstep : ∀ clause t, step limits (within clause) t =
      (ConflictClause.step clause t).andThen within fun conflict => .complete (f conflict))
    (h : ConflictClause.Derives ts conflict) (he : e.continuesClause = false) :
    Accepts (step limits) (within .start) ts e (f conflict) :=
  Accepts.last_part (fun conflict _ => .complete (f conflict)) hstep
    (ConflictClause.accepts_of_derives h (kind_ne_on_of_not_continuesClause he)) rfl

private theorem accepts_expression {ts : List Token} {text : String}
    (within : Expression.State → State) {f : String → Result} {s : Expression.State}
    (hstep : ∀ expression t, step limits (within expression) t =
      (Expression.step limits expression t).andThen within fun text => .complete (f text))
    (h : Accepts (Expression.step limits) s ts e text) :
    Accepts (step limits) (within s) ts e (f text) :=
  Accepts.last_part (fun text _ => .complete (f text)) hstep h rfl

private theorem accepts_keyConflict {ts us : List Token} {order : SortOrder}
    {conflict : ConflictResolution} {autoincrement : Bool}
    (hts : ConflictClause.Derives ts conflict) (hus : Autoincrement us autoincrement)
    (he : e.continuesClause = false) :
    Accepts (step limits) (.keyConflict order .start) (ts ++ us) e
      { constraint := .primaryKey order conflict autoincrement } := by
  have hstep : ∀ p t, step limits (.keyConflict order p) t =
      (ConflictClause.step p t).andThen (.keyConflict order) fun conflict =>
        if t.isKeyword .autoincrement then .taken (.closed (.primaryKey order conflict true))
        else .complete { constraint := .primaryKey order conflict false } := fun _ _ => rfl
  refine Accepts.part ConflictClause.step (fun conflict t => _) hstep
    (ConflictClause.accepts_of_derives hts ?_) ?_
  · cases hus with
    | absent => exact kind_ne_on_of_not_continuesClause he
    | present ht => simp [ht]
  · cases hus with
    | absent =>
      have hword : e.kind ≠ .keyword .autoincrement := by
        intro hkind
        simp [Token.continuesClause, hkind] at he
      simp [Leads, hword]
    | present ht => simp [Leads, ht, step]

private theorem accepts_order {orders conflicts autos : List Token} {order : SortOrder}
    {conflict : ConflictResolution} {autoincrement : Bool}
    (horders : SortClause.Derives orders order)
    (hconflicts : ConflictClause.Derives conflicts conflict)
    (hautos : Autoincrement autos autoincrement) (he : e.continuesClause = false) :
    Accepts (step limits) .order (orders ++ conflicts ++ autos) e
      { constraint := .primaryKey order conflict autoincrement } := by
  have hnext : Accepts (step limits) (.keyConflict order .start) (conflicts ++ autos) e
      { constraint := .primaryKey order conflict autoincrement } :=
    accepts_keyConflict hconflicts hautos he
  rw [List.append_assoc]
  cases horders with
  | absent =>
    rw [accepts_iff_leads] at hnext ⊢
    have hfirst : ((conflicts ++ autos).headD e).sortOrder? = none := by
      cases hconflicts with
      | present hon => simp [Token.sortOrder?, hon, SortOrder.ofKeyword?]
      | absent =>
        cases hautos with
        | present ht => simp [Token.sortOrder?, ht, SortOrder.ofKeyword?]
        | absent =>
          unfold Token.sortOrder?
          split
          · rename_i word hkind
            cases word <;> simp_all [Token.continuesClause, SortOrder.ofKeyword?]
          · rfl
    rw [List.nil_append]
    simp only [step, hfirst]
    exact hnext
  | present horder => exact Accepts.take (by simp [step, horder]) hnext

private theorem accepts_default {ts : List Token} {value : String} {word : Token}
    (h : Derives limits.maxExprDepth (word :: ts) (.default value)) :
    Accepts (step limits) .default ts e { constraint := .default value } := by
  cases h with
  | defaultExpression _ hts =>
    cases hts with
    | intro hopening hne hinner hclosing =>
      refine Accepts.take (n := .expression (.inside 0 [])) (by simp [step, default, hopening]) ?_
      refine accepts_expression .expression (fun _ _ => rfl) ?_
      exact Expression.accepts_inside_of_derives (.intro hopening hne hinner hclosing) e
  | defaultNumber _ hts =>
    cases hts with
    | @plain number hnumber =>
      refine Accepts.take (n := .closed (.default number.source)) ?_ ?_
      · simp [step, default, hnumber, isLiteral]
      · simp [step, verbatim_singleton]
    | @signed sign number hsign hnumber =>
      have hkind : sign.kind = .operator := by
        simp only [Token.isSign, Bool.and_eq_true, beq_iff_eq] at hsign
        exact hsign.1
      refine Accepts.take (n := .number (.signed sign)) ?_ ?_
      · simp [step, default, hkind, SignedNumber.step, hsign]
      · simp [step, SignedNumber.step, takeKind, hnumber]
  | @defaultLiteral _ t _ hliteral =>
    have htake : step limits .default t = .taken (.closed (.default t.source)) := by
      have hall := isLiteral_iff.2 (.inr hliteral)
      simp only [step, default]
      split
      · rename_i hkind
        simp [isLiteral, hkind, Token.name?, Token.isKeyword] at hall
      · rename_i hkind
        simp [isLiteral, hkind, Token.name?, Token.isKeyword] at hall
      · rw [if_pos hall]
    exact Accepts.take htake (by simp [step])

/-- A constraint begins with a word, and behind it the rest is taken. -/
theorem stops_of_derives {ts : List Token} {constraint : ColumnConstraint}
    (h : Derives limits.maxExprDepth ts constraint) (he : e.continuesClause = false) :
    ∃ t us word s, ts = t :: us ∧ t.kind = .keyword word ∧ start? word = some s ∧
      Stops (step limits) s us e fun heldNot => { constraint, heldNot } := by
  cases h with
  | @primaryKey primary key orders conflicts autos order conflict auto hprimary hkey horders
      hconflicts hautos =>
    refine ⟨primary, _, .primary, .key, rfl, hprimary, rfl, .inl ?_⟩
    refine Accepts.take (n := .order) (by simp [step, takeKeyword, takeKind, hkey]) ?_
    exact accepts_order horders hconflicts hautos he
  | notNull hnot hnull hconflicts =>
    refine ⟨_, _, .not, .null, rfl, hnot, rfl, .inl ?_⟩
    refine Accepts.take (n := .notNull .start) (by simp [step, takeKeyword, takeKind, hnull]) ?_
    exact accepts_conflict .notNull (fun _ _ => rfl) hconflicts he
  | null hnull hconflicts =>
    refine ⟨_, _, .null, .nullable .start, rfl, hnull, rfl, .inl ?_⟩
    exact accepts_conflict .nullable (fun _ _ => rfl) hconflicts he
  | unique hunique hconflicts =>
    refine ⟨_, _, .unique, .unique .start, rfl, hunique, rfl, .inl ?_⟩
    exact accepts_conflict .unique (fun _ _ => rfl) hconflicts he
  | check hcheck hts =>
    refine ⟨_, _, .check, .check .opening, rfl, hcheck, rfl, .inl ?_⟩
    exact accepts_expression .check (fun _ _ => rfl)
      (Expression.accepts_of_derives hts e)
  | defaultExpression hdefault hts =>
    exact ⟨_, _, .default, .default, rfl, hdefault, rfl,
      .inl (accepts_default (.defaultExpression hdefault hts))⟩
  | defaultNumber hdefault hts =>
    exact ⟨_, _, .default, .default, rfl, hdefault, rfl,
      .inl (accepts_default (.defaultNumber hdefault hts))⟩
  | defaultLiteral hdefault hliteral =>
    exact ⟨_, _, .default, .default, rfl, hdefault, rfl,
      .inl (accepts_default (.defaultLiteral hdefault hliteral))⟩
  | @collate collate t name hcollate hname =>
    refine ⟨collate, _, .collate, .collation, rfl, hcollate, rfl, .inl ?_⟩
    exact Accepts.take (n := .closed (.collate name)) (by simp [step, takeName, hname])
      (by simp [step])
  | @references references ts key hreferences hts =>
    refine ⟨references, _, .references, .references .table, rfl, hreferences, rfl, ?_⟩
    exact Stops.last_part
      (fun k _ => .complete { constraint := .references k.key, heldNot := k.heldNot })
      (fun _ _ => rfl) (References.stops_of_derives hts he) fun _ _ => rfl

end CreateTable.Grammar.ColumnConstraint
