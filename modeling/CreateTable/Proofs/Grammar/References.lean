import CreateTable.Proofs.Grammar.Clauses

/-!
# The reader of foreign keys

What is read behind `REFERENCES` is what the rule for foreign keys derives.

## Main definitions

- `References.residual` — what is due in each state of the reader

## Main statements

- `References.isResidual` — each step takes what is due
- `References.stops_of_derives` — what is derived is taken
-/

namespace CreateTable.Grammar.References

/-- What is due behind the name of the table. -/
def Named (key : ForeignKey) (ts : List Token) (key' : ForeignKey) : Prop :=
  Clauses key ts key' ∨
  ∃ opening names us columns, ts = opening :: (names ++ us) ∧ opening.kind = .leftParen ∧
    NameList.Derives names columns ∧ Clauses { key with columns } us key'

/-- What is due behind `ON` and an event. -/
def ActionDue (key : ForeignKey) (event : Event) (ts : List Token) (key' : ForeignKey) : Prop :=
  ∃ acts rest action, ts = acts ++ rest ∧ Action acts action ∧
    Clauses (setAction key event action) rest key'

/-- What is due behind `ON`. -/
def EventDue (key : ForeignKey) (ts : List Token) (key' : ForeignKey) : Prop :=
  ∃ word rest event, ts = word :: rest ∧ word.kind = .keyword (Event.keyword event) ∧
    ActionDue key event rest key'

/-- What is due behind the first word `word` of an action of two words. -/
def WordDue (word : Keyword) (key : ForeignKey) (event : Event) (ts : List Token)
    (key' : ForeignKey) : Prop :=
  ∃ t rest action, ts = t :: rest ∧
    (∀ first : Token, first.kind = .keyword word → Action [first, t] action) ∧
    Clauses (setAction key event action) rest key'

/-- What is due behind `MATCH`. -/
def MatchTypeDue (key : ForeignKey) (ts : List Token) (key' : ForeignKey) : Prop :=
  ∃ t rest name, ts = t :: rest ∧ t.name? = some name ∧
    Clauses { key with matchType := some name } rest key'

/-- What is due behind `DEFERRABLE`. -/
def ModeDue (key : ForeignKey) (negated : Bool) (ts : List Token) (key' : ForeignKey) : Prop :=
  ∃ mode, Mode ts mode ∧ key' = { key with deferral := .stated negated mode }

/-- The tokens due in a state, and the foreign key that they end. -/
def residual : State → List Token → Result → Prop
  | .table, ts, r => Ends Derives ts r.key r.heldNot
  | .named key, ts, r => Ends (Named key) ts r.key r.heldNot
  | .columns key names, ts, r =>
    Ends (Sequel (NameList.residual names) fun columns => Clauses { key with columns }) ts r.key
      r.heldNot
  | .clauses key, ts, r => Ends (Clauses key) ts r.key r.heldNot
  | .event key, ts, r => Ends (EventDue key) ts r.key r.heldNot
  | .action key event, ts, r => Ends (ActionDue key event) ts r.key r.heldNot
  | .set key event, ts, r => Ends (WordDue .set key event) ts r.key r.heldNot
  | .no key event, ts, r => Ends (WordDue .no key event) ts r.key r.heldNot
  | .matchType key, ts, r => Ends (MatchTypeDue key) ts r.key r.heldNot
  | .not key word, ts, r =>
    (∃ t rest, ts = t :: rest ∧ t.kind = .keyword .deferrable ∧ ModeDue key true rest r.key ∧
      r.heldNot = none) ∨
    ts = [] ∧ r = { key, heldNot := some word }
  | .deferrable key negated, ts, r => ModeDue key negated ts r.key ∧ r.heldNot = none
  | .initially key negated, ts, r =>
    (∃ t mode, ts = [t] ∧ (∀ word : Token, word.kind = .keyword .initially → Mode [word, t] mode) ∧
      r.key = { key with deferral := .stated negated mode }) ∧ r.heldNot = none
  | .closed key, ts, r => ts = [] ∧ r = { key }

section

variable {s : State} {key key' : ForeignKey} {event : Event} {t : Token} {ts : List Token}
  {r : Result}

/-- An action behind its event is a clause. -/
theorem ActionDue.clauses {on word : Token} (h : ActionDue key event ts key')
    (hon : on.kind = .keyword .on) (hword : word.kind = .keyword event.keyword) :
    Clauses key (on :: word :: ts) key' := by
  obtain ⟨acts, rest, action, rfl, hacts, hrest⟩ := h
  exact .clause (.action hon hword hacts) hrest

/-- An action whose first word is there is due where an action is. -/
theorem WordDue.action {first : Token} {word : Keyword} (h : WordDue word key event ts key')
    (hfirst : first.kind = .keyword word) : ActionDue key event (first :: ts) key' := by
  obtain ⟨u, rest, action, rfl, haction, hrest⟩ := h
  exact ⟨[first, u], rest, action, rfl, haction first hfirst, hrest⟩

theorem residual_betweenClauses (h : betweenClauses key t = .taken s) (hr : residual s ts r) :
    Ends (Clauses key) (t :: ts) r.key r.heldNot := by
  unfold betweenClauses at h
  split at h
  · rename_i hon
    obtain rfl := Verdict.taken.inj h
    refine Ends.cons hr ?_
    rintro us ⟨word, rest, event, rfl, hword, haction⟩
    exact haction.clauses hon hword
  · rename_i hmatch
    obtain rfl := Verdict.taken.inj h
    refine Ends.cons hr ?_
    rintro us ⟨u, rest, name, rfl, hname, hrest⟩
    exact .clause (.matchType hmatch hname) hrest
  · rename_i hnot
    obtain rfl := Verdict.taken.inj h
    -- the `NOT` opens a deferral, or it is held for the constraint behind the key
    obtain ⟨u, rest, rfl, hu, ⟨mode, hmode, hkey⟩, hheld⟩ | ⟨rfl, rfl⟩ := hr
    · exact .inl ⟨hheld, hkey ▸ .deferrable (.negated hnot hu hmode)⟩
    · exact .inr ⟨[], t, rfl, hnot, rfl, .nil⟩
  · rename_i hdeferrable
    obtain rfl := Verdict.taken.inj h
    obtain ⟨⟨mode, hmode, hkey⟩, hheld⟩ := hr
    exact .inl ⟨hheld, hkey ▸ .deferrable (.plain hdeferrable hmode)⟩
  · simp at h

theorem betweenClauses_eq_complete (h : betweenClauses key t = .complete r) : r = { key } := by
  unfold betweenClauses at h
  split at h <;> simp_all

-- the name of the table and the list of its columns

theorem residual_named (h : step (.named key) t = .taken s) (hr : residual s ts r) :
    residual (.named key) (t :: ts) r := by
  simp only [step] at h
  split at h
  · rename_i hopening
    obtain rfl := Verdict.taken.inj h
    refine Ends.cons hr ?_
    rintro us ⟨names, rest, columns, rfl, ⟨more, hmore, rfl⟩, hrest⟩
    exact .inr ⟨t, names, rest, _, rfl, hopening, hmore, hrest⟩
  · exact (residual_betweenClauses h hr).mono fun _ => .inl

/-- The list of names is over one token before the key goes on. -/
theorem residual_columns {names : NameList.State} (h : step (.columns key names) t = .taken s)
    (hr : residual s ts r) : residual (.columns key names) (t :: ts) r := by
  obtain ⟨names', hnames, rfl⟩ | ⟨columns, hcolumns, h⟩ := Verdict.andThen_eq_taken.1 h
  · refine Ends.cons hr ?_
    rintro us ⟨us, rest, columns, rfl, hus, hrest⟩
    exact ⟨t :: us, rest, columns, rfl, NameList.isResidual.taken hnames hus, hrest⟩
  · refine (residual_betweenClauses h hr).mono fun us hus => ?_
    exact ⟨[], us, columns, rfl, NameList.isResidual.complete hcolumns, hus⟩

-- an action, from its event on

theorem residual_event (h : step (.event key) t = .taken s) (hr : residual s ts r) :
    residual (.event key) (t :: ts) r := by
  simp only [step] at h
  split at h
  · rename_i hword
    obtain rfl := Verdict.taken.inj h
    exact Ends.cons hr fun us hus => ⟨t, us, .delete, rfl, hword, hus⟩
  · rename_i hword
    obtain rfl := Verdict.taken.inj h
    exact Ends.cons hr fun us hus => ⟨t, us, .update, rfl, hword, hus⟩
  · simp at h

theorem residual_action (h : step (.action key event) t = .taken s) (hr : residual s ts r) :
    residual (.action key event) (t :: ts) r := by
  simp only [step] at h
  split at h
  · rename_i hset
    obtain rfl := Verdict.taken.inj h
    exact Ends.cons hr fun us hus => hus.action hset
  · rename_i hword
    obtain rfl := Verdict.taken.inj h
    exact Ends.cons hr fun us hus => ⟨[t], us, .cascade, rfl, .cascade hword, hus⟩
  · rename_i hword
    obtain rfl := Verdict.taken.inj h
    exact Ends.cons hr fun us hus => ⟨[t], us, .restrict, rfl, .restrict hword, hus⟩
  · rename_i hno
    obtain rfl := Verdict.taken.inj h
    exact Ends.cons hr fun us hus => hus.action hno
  · simp at h

theorem residual_set (h : step (.set key event) t = .taken s) (hr : residual s ts r) :
    residual (.set key event) (t :: ts) r := by
  simp only [step] at h
  split at h
  · rename_i hword
    obtain rfl := Verdict.taken.inj h
    refine Ends.cons hr fun us hus => ?_
    exact ⟨t, us, .setNull, rfl, fun set hset => .setNull hset hword, hus⟩
  · rename_i hword
    obtain rfl := Verdict.taken.inj h
    refine Ends.cons hr fun us hus => ?_
    exact ⟨t, us, .setDefault, rfl, fun set hset => .setDefault hset hword, hus⟩
  · simp at h

theorem residual_no (h : step (.no key event) t = .taken s) (hr : residual s ts r) :
    residual (.no key event) (t :: ts) r := by
  obtain ⟨haction, rfl⟩ := takeKeyword_eq_taken.1 h
  refine Ends.cons hr fun us hus => ?_
  exact ⟨t, us, .noAction, rfl, fun no hno => .noAction hno haction, hus⟩

-- a deferral, which is the last of a key

theorem residual_not {word : Token} (h : step (.not key word) t = .taken s)
    (hr : residual s ts r) : residual (.not key word) (t :: ts) r := by
  simp only [step] at h
  split at h
  · rename_i hdeferrable
    obtain rfl := Verdict.taken.inj h
    exact .inl ⟨t, ts, rfl, hdeferrable, hr⟩
  · simp at h

theorem residual_deferrable {negated : Bool} (h : step (.deferrable key negated) t = .taken s)
    (hr : residual s ts r) : residual (.deferrable key negated) (t :: ts) r := by
  simp only [step] at h
  split at h
  · rename_i hword
    obtain rfl := Verdict.taken.inj h
    obtain ⟨⟨u, mode, rfl, hmode, hkey⟩, hheld⟩ := hr
    exact ⟨⟨mode, hmode t hword, hkey⟩, hheld⟩
  · simp at h

theorem residual_initially {negated : Bool} (h : step (.initially key negated) t = .taken s)
    (hr : residual s ts r) : residual (.initially key negated) (t :: ts) r := by
  simp only [step] at h
  split at h
  · rename_i hmode
    obtain rfl := Verdict.taken.inj h
    obtain ⟨rfl, rfl⟩ := hr
    exact ⟨⟨t, .deferred, rfl, fun word hword => .deferred hword hmode, rfl⟩, rfl⟩
  · rename_i hmode
    obtain rfl := Verdict.taken.inj h
    obtain ⟨rfl, rfl⟩ := hr
    exact ⟨⟨t, .immediate, rfl, fun word hword => .immediate hword hmode, rfl⟩, rfl⟩
  · simp at h

/-- Where a key is complete, it is held as it is, but for a deferral that names no mode and a `NOT`
    that is handed back. -/
theorem residual_of_complete (h : step s t = .complete r) : residual s [] r := by
  cases s with
  | table | no _ _ | matchType _ => simp [step] at h
  | event _ | action _ _ | set _ _ | initially _ _ =>
    simp only [step] at h
    split at h <;> simp at h
  | named key =>
    simp only [step] at h
    split at h
    · simp at h
    · obtain rfl := betweenClauses_eq_complete h
      exact .inl ⟨rfl, .inl .nil⟩
  | columns key names =>
    obtain ⟨columns, hcolumns, h⟩ := Verdict.andThen_eq_complete.1 h
    obtain rfl := betweenClauses_eq_complete h
    exact .inl ⟨rfl, [], [], columns, rfl, NameList.isResidual.complete hcolumns, .nil⟩
  | clauses key =>
    obtain rfl := betweenClauses_eq_complete h
    exact .inl ⟨rfl, .nil⟩
  | not key word =>
    simp only [step] at h
    split at h
    · simp at h
    · obtain rfl := Verdict.complete.inj h
      exact .inr ⟨rfl, rfl⟩
  | deferrable key negated =>
    simp only [step] at h
    split at h
    · simp at h
    · obtain rfl := Verdict.complete.inj h
      exact ⟨⟨.unspecified, .absent, rfl⟩, rfl⟩
  | closed key =>
    obtain rfl := Verdict.complete.inj h
    exact ⟨rfl, rfl⟩

end

theorem isResidual : IsResidual step residual where
  taken {s s' t ts r} h hr := by
    cases s with
    | table =>
      obtain ⟨table, hname, rfl⟩ := takeName_eq_taken.1 h
      refine Ends.cons hr ?_
      rintro us (hus | ⟨opening, names, us, columns, rfl, hopening, hnames, hus⟩)
      · exact .plain hname hus
      · exact .listed hname hopening hnames hus
    | named key => exact residual_named h hr
    | columns key names => exact residual_columns h hr
    | clauses key => exact residual_betweenClauses h hr
    | event key => exact residual_event h hr
    | action key event => exact residual_action h hr
    | set key event => exact residual_set h hr
    | no key event => exact residual_no h hr
    | matchType key =>
      obtain ⟨name, hname, rfl⟩ := takeName_eq_taken.1 h
      exact Ends.cons hr fun us hus => ⟨t, us, name, rfl, hname, hus⟩
    | not key word => exact residual_not h hr
    | deferrable key negated => exact residual_deferrable h hr
    | initially key negated => exact residual_initially h hr
    | closed key => simp [step] at h
  complete h := residual_of_complete h

-- ════════════════════════════════════════════════════════════════════════
-- What is derived is taken
-- ════════════════════════════════════════════════════════════════════════

variable {key key' : ForeignKey} {e : Token} {ts rest : List Token} {r : Result}

private theorem accepts_action {event : Event} {action : ReferentialAction}
    (h : Action ts action)
    (hrest : Accepts step (.clauses (setAction key event action)) rest e r) :
    Accepts step (.action key event) (ts ++ rest) e r := by
  cases h with
  | setNull hset hnull =>
    refine Accepts.take (n := .set key event) (by simp [step, hset]) ?_
    exact Accepts.take (by simp [step, hnull]) hrest
  | setDefault hset hdefault =>
    refine Accepts.take (n := .set key event) (by simp [step, hset]) ?_
    exact Accepts.take (by simp [step, hdefault]) hrest
  | cascade ht => exact Accepts.take (by simp [step, ht]) hrest
  | restrict ht => exact Accepts.take (by simp [step, ht]) hrest
  | noAction hno haction =>
    refine Accepts.take (n := .no key event) (by simp [step, hno]) ?_
    exact Accepts.take (by simp [step, haction]) hrest

private theorem accepts_clause (h : Clause key ts key')
    (hrest : Accepts step (.clauses key') rest e r) :
    Accepts step (.clauses key) (ts ++ rest) e r := by
  cases h with
  | @action on word event ts action hon hword haction =>
    refine Accepts.take (n := .event key) (by simp [step, betweenClauses, hon]) ?_
    refine Accepts.take (n := .action key event) ?_ (accepts_action haction hrest)
    cases event <;> simp [step, hword, Event.keyword]
  | matchType hword hname =>
    refine Accepts.take (n := .matchType key) (by simp [step, betweenClauses, hword]) ?_
    exact Accepts.take (by simp [step, takeName, hname]) hrest

private theorem accepts_mode {mode : InitialMode} {negated : Bool} (h : Mode ts mode)
    (he : e.kind ≠ .keyword .initially) :
    Accepts step (.deferrable key negated) ts e
      { key := { key with deferral := .stated negated mode } } := by
  cases h with
  | absent => simp [step]
  | deferred hword ht => simp [step, hword, ht]
  | immediate hword ht => simp [step, hword, ht]

/-- Clauses are taken, and the `NOT` behind them too, unless a deferral stands last. -/
private theorem stops_clauses (h : Clauses key ts key') (he : e.continuesClause = false) :
    Stops step (.clauses key) ts e fun heldNot => { key := key', heldNot } := by
  -- on the clauses: a `NOT` that may still open a deferral is seen only behind the last of them
  induction h with
  | @nil key =>
    by_cases hnot : e.kind = .keyword .not
    · refine .inr ⟨hnot, fun e' he' => ?_⟩
      refine Accepts.take (n := .not key e) (by simp [step, betweenClauses, hnot]) ?_
      simp [step]
    · refine .inl ?_
      simp only [accepts_nil, step, betweenClauses]
      split <;> simp_all [Token.continuesClause]
  | @clause key _ _ ts rest hts _ ih =>
    obtain h | ⟨hnot, h⟩ := ih
    · exact .inl (accepts_clause hts h)
    · refine .inr ⟨hnot, fun e' he' => ?_⟩
      rw [List.append_assoc]
      exact accepts_clause hts (h e' he')
  | @deferrable key ts deferral hts =>
    have hinitially : e.kind ≠ .keyword .initially := by
      intro hkind
      simp [Token.continuesClause, hkind] at he
    refine .inl ?_
    cases hts with
    | plain ht hmode =>
      refine Accepts.take (n := .deferrable key false) (by simp [step, betweenClauses, ht]) ?_
      exact accepts_mode hmode hinitially
    | @negated not t ts mode hnot ht hmode =>
      refine Accepts.take (n := .not key not) (by simp [step, betweenClauses, hnot]) ?_
      refine Accepts.take (n := .deferrable key true) (by simp [step, ht]) ?_
      exact accepts_mode hmode hinitially

/-- Behind the name of the table clauses are taken as elsewhere, as none begins with the
    parenthesis of a list. -/
private theorem accepts_named (h : Accepts step (.clauses key) ts e r)
    (he : ts = [] → e.kind ≠ .leftParen) : Accepts step (.named key) ts e r := by
  rw [accepts_iff_leads] at h ⊢
  have hstep : ∀ t : Token, t.kind ≠ .leftParen →
      step (.named key) t = step (.clauses key) t := by
    intro t ht
    simp only [step]
  cases ts with
  | nil => exact hstep e (he rfl) ▸ h
  | cons t ts =>
    refine hstep t (fun ht => ?_) ▸ h
    obtain ⟨s, hs, -⟩ := h
    simp [step, betweenClauses, ht] at hs

/-- A foreign key is taken, and a `NOT` behind it handed back. -/
theorem stops_of_derives (h : Derives ts key) (he : e.continuesClause = false) :
    Stops step .table ts e fun heldNot => { key, heldNot } := by
  have hleft : e.kind ≠ .leftParen := by
    intro hkind
    simp [Token.continuesClause, hkind] at he
  cases h with
  | @plain t table ts _ hname hts =>
    have htake : step .table t = .taken (.named { table }) := by simp [step, takeName, hname]
    obtain h | ⟨hnot, h⟩ := stops_clauses hts he
    · exact .inl (Accepts.take htake (accepts_named h fun _ => hleft))
    · refine .inr ⟨hnot, fun e' he' => Accepts.take htake ?_⟩
      exact accepts_named (h e' he') fun hnil => by simp at hnil
  | @listed t opening table names ts columns _ hname hopening hnames hts =>
    have hlist : ∀ {us e r}, Accepts step (.clauses { table, columns }) us e r →
        Accepts step .table (t :: opening :: names ++ us) e r := by
      intro us e r h
      refine Accepts.take (n := .named { table }) (by simp [step, takeName, hname]) ?_
      refine Accepts.take (n := .columns { table } (.name [])) (by simp [step, hopening]) ?_
      refine Accepts.part (NameList.step .referencedColumn .closeAfterReferenced)
        (fun columns => betweenClauses { table, columns }) (fun _ _ => rfl)
        (NameList.accepts_of_derives hnames [] _) ?_
      exact accepts_iff_leads.1 h
    obtain h | ⟨hnot, h⟩ := stops_clauses hts he
    · exact .inl (hlist h)
    · refine .inr ⟨hnot, fun e' he' => ?_⟩
      rw [List.append_assoc]
      exact hlist (h e' he')

end CreateTable.Grammar.References
