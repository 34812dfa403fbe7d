import CreateTable.Proofs.Grammar.Column
import CreateTable.Proofs.Grammar.TableConstraint

/-!
# The reader of bodies

What is read between the parentheses of a statement is what the rule for bodies derives, with no
more columns than the limit allows.

## Main definitions

- `Body.residual` — what is due in each state of the reader
- `Body.Closed` — a body with its closing parenthesis, and what it holds

## Main statements

- `Body.isResidual` — each step takes what is due
- `Body.accepts_of_closed` — what is derived is taken
-/

namespace CreateTable.Grammar.Body

variable {limits : Limits}

/-- What is due behind a constraint: more of them and the end. -/
def ConstraintsDue (limits : Limits) (p : Progress) (ts : List Token) (items : Items) : Prop :=
  ∃ us comma closing cs, ts = us ++ comma ++ [closing] ∧
    MoreConstraints limits.maxExprDepth us cs ∧ OptionalComma comma ∧
    closing.kind = .rightParen ∧ p.columns ≠ [] ∧
    items = { columns := p.columns.reverse, constraints := p.constraints.reverse ++ cs }

/-- What is due behind a column: more of them, constraints and the end. -/
def ColumnsDue (limits : Limits) (p : Progress) (ts : List Token) (items : Items) : Prop :=
  ∃ more us comma closing ws cs, ts = more ++ us ++ comma ++ [closing] ∧
    MoreColumns limits.maxExprDepth more ws ∧ Constraints limits.maxExprDepth us cs ∧
    OptionalComma comma ∧ closing.kind = .rightParen ∧ ws.length ≤ p.room ∧
    items.columns ≠ [] ∧
    items = { columns := p.columns.reverse ++ ws.map WrittenColumn.column, constraints := cs }

/-- What is due behind an item. -/
def ItemRest (limits : Limits) (p : Progress) (ts : List Token) (items : Items) : Prop :=
  if p.constraints = [] then ColumnsDue limits p ts items else ConstraintsDue limits p ts items

/-- What is due behind a table constraint, which hands nothing back. -/
def ConstraintRest (limits : Limits) (p : Progress) (r : TableConstraint.Result) (ts : List Token)
    (items : Items) : Prop :=
  r.heldNot = none ∧ ConstraintsDue limits (p.addConstraint r.constraint) ts items

/-- A body with its closing parenthesis, and what it holds. -/
def Closed (limits : Limits) (ts : List Token) (items : Items) : Prop :=
  ∃ body closing columns constraints, ts = body ++ [closing] ∧
    Derives limits.maxExprDepth body columns constraints ∧ closing.kind = .rightParen ∧
    columns.length ≤ limits.maxColumns ∧
    items = { columns := columns.map WrittenColumn.column, constraints }

/-- The tokens due in a state, and the items that they end. -/
def residual (limits : Limits) : State → List Token → Items → Prop
  | .start, ts, items => Closed limits ts items
  | .item p, ts, items =>
    ∀ comma : Token, comma.kind = .comma → ItemRest limits p (comma :: ts) items
  | .column p column, ts, items =>
    Sequel (Column.residual limits column) (fun c => ItemRest limits (p.addColumn c)) ts items
  | .constraint p constraint, ts, items =>
    Sequel (TableConstraint.residual limits constraint) (ConstraintRest limits p) ts items
  | .closed items', ts, items => ts = [] ∧ items = items'

section

variable {s s' : State} {p : Progress} {t : Token} {ts : List Token} {items : Items}

theorem itemRest_of_nil (hp : p.constraints = []) (h : ColumnsDue limits p ts items) :
    ItemRest limits p ts items := by
  rw [ItemRest, if_pos hp]
  exact h

theorem itemRest_of_ne_nil (hp : p.constraints ≠ []) (h : ConstraintsDue limits p ts items) :
    ItemRest limits p ts items := by
  rw [ItemRest, if_neg hp]
  exact h

/-- The end of a body may stand behind each item. -/
theorem itemRest_of_close {comma : List Token} (hp : p.columns ≠ []) (hcomma : OptionalComma comma)
    (ht : t.kind = .rightParen) : ItemRest limits p (comma ++ [t]) p.items := by
  by_cases hnil : p.constraints = []
  · refine itemRest_of_nil hnil ?_
    refine ⟨[], [], comma, t, [], [], rfl, .nil, .absent, hcomma, ht, by simp, ?_, ?_⟩
    · simpa [Progress.items] using hp
    · simp [Progress.items, hnil]
  · refine itemRest_of_ne_nil hnil ?_
    exact ⟨[], comma, t, [], rfl, .nil, hcomma, ht, hp, by simp [Progress.items]⟩

/-- A constraint, and what is due behind it. -/
theorem constraint_cons {inner : TableConstraint.State}
    (hinner : TableConstraint.start? t = some inner)
    (h : residual limits (.constraint p inner) ts items) :
    ∃ us rest c, t :: ts = us ++ rest ∧ TableConstraint.Derives limits.maxExprDepth us c ∧
      ConstraintsDue limits (p.addConstraint c) rest items := by
  obtain ⟨us, rest, r, rfl, hus, hheld, hrest⟩ := h
  obtain ⟨-, hr⟩ | ⟨_, _, hsome, -⟩ := TableConstraint.derives_of_residual hinner hus
  · exact ⟨t :: us, rest, r.constraint, rfl, hr, hrest⟩
  · simp [hheld] at hsome

/-- A constraint behind an item, or behind a comma. -/
theorem itemRest_of_constraint {comma : Token} {inner : TableConstraint.State}
    (hcomma : comma.kind = .comma) (hinner : TableConstraint.start? t = some inner)
    (h : residual limits (.constraint p inner) ts items) :
    ItemRest limits p (comma :: t :: ts) items := by
  obtain ⟨us, rest, c, hts, hus, more, last, closing, cs, rfl, hmore, hlast, hclosing, hp, rfl⟩ :=
    constraint_cons hinner h
  rw [hts]
  by_cases hnil : p.constraints = []
  · refine itemRest_of_nil hnil ?_
    refine ⟨[], comma :: us ++ more, last, closing, [], c :: cs, by simp, .nil,
      .present hcomma hus hmore, hlast, hclosing, by simp, ?_, ?_⟩
    · simpa [Progress.addConstraint] using hp
    · simp [Progress.addConstraint, hnil]
  · refine itemRest_of_ne_nil hnil ?_
    refine ⟨[comma] ++ us ++ more, last, closing, c :: cs, by simp,
      .cons (.present hcomma) hus hmore, hlast, hclosing, hp, ?_⟩
    simp [Progress.addConstraint]

/-- A column with its name. -/
theorem column_cons {name : String} (hname : t.name? = some name) (hp : p.constraints = [])
    (h : residual limits (.column p (.ofName name)) ts items) :
    ∃ us rest w, t :: ts = us ++ rest ∧ Column.Derives limits.maxExprDepth us w ∧
      ColumnsDue limits (p.addColumn w.column) rest items := by
  obtain ⟨us, rest, c, rfl, hus, hrest⟩ := h
  obtain ⟨w, hw, rfl⟩ := Column.derives_of_residual hname hus
  rw [ItemRest, if_pos (by exact hp)] at hrest
  exact ⟨t :: us, rest, w, rfl, hw, hrest⟩

theorem finish_eq_taken (h : finish p t = .taken s) :
    t.kind = .rightParen ∧ p.columns ≠ [] ∧ s = .closed p.items := by
  unfold finish requireColumn at h
  split at h
  · simp at h
  · rename_i hp
    obtain ⟨ht, rfl⟩ := takeKind_eq_taken.1 h
    exact ⟨ht, by simpa using hp, rfl⟩

theorem finish_ne_complete : finish p t ≠ .complete items := by
  unfold finish requireColumn
  split <;> simp

theorem beginColumn_eq_taken (h : beginColumn limits p t = .taken s) :
    0 < p.room ∧ ∃ name, t.name? = some name ∧ s = .column p (.ofName name) := by
  unfold beginColumn at h
  split at h
  · simp at h
  · obtain ⟨name, hname, rfl⟩ := takeName_eq_taken.1 h
    exact ⟨by omega, name, hname, rfl⟩

/-- What an item may begin with. -/
theorem item_eq_taken (h : item limits p t = .taken s) :
    (t.kind = .rightParen ∧ p.columns ≠ [] ∧ s = .closed p.items) ∨
    (∃ inner, TableConstraint.start? t = some inner ∧ s = .constraint p inner) ∨
    (p.constraints = [] ∧ 0 < p.room ∧
      ∃ name, t.name? = some name ∧ s = .column p (.ofName name)) := by
  unfold item at h
  split at h
  · exact .inl (finish_eq_taken h)
  · split at h
    · rename_i inner hinner
      exact .inr (.inl ⟨inner, hinner, (Verdict.taken.inj h).symm⟩)
    · split at h
      · rename_i hp
        exact .inr (.inr ⟨by simpa using hp, beginColumn_eq_taken h⟩)
      · simp at h

theorem item_ne_complete : item limits p t ≠ .complete items := by
  unfold item
  split
  · exact finish_ne_complete
  · split
    · simp
    · split
      · unfold beginColumn
        split <;> simp
      · simp

theorem residual_afterColumn (h : afterColumn p t = .taken s) (hr : residual limits s ts items) :
    ItemRest limits p (t :: ts) items := by
  unfold afterColumn at h
  split at h
  · rename_i hcomma
    obtain rfl := Verdict.taken.inj h
    exact hr t hcomma
  · obtain ⟨ht, hp, rfl⟩ := finish_eq_taken h
    obtain ⟨rfl, rfl⟩ := hr
    exact itemRest_of_close hp .absent ht

theorem afterColumn_ne_complete : afterColumn p t ≠ .complete items := by
  unfold afterColumn
  split
  · simp
  · exact finish_ne_complete

theorem residual_afterConstraint (hp : p.constraints ≠ []) (h : afterConstraint p t = .taken s)
    (hr : residual limits s ts items) : ConstraintsDue limits p (t :: ts) items := by
  unfold afterConstraint at h
  split at h
  · rename_i inner hinner
    obtain rfl := Verdict.taken.inj h
    obtain ⟨us, rest, c, hts, hus, more, last, closing, cs, rfl, hmore, hlast, hclosing, hp, rfl⟩ :=
      constraint_cons hinner hr
    rw [hts]
    refine ⟨[] ++ us ++ more, last, closing, c :: cs, by simp, .cons .absent hus hmore, hlast,
      hclosing, hp, ?_⟩
    simp [Progress.addConstraint]
  · have := residual_afterColumn h hr
    rwa [ItemRest, if_neg hp] at this

theorem afterConstraint_ne_complete : afterConstraint p t ≠ .complete items := by
  unfold afterConstraint
  split
  · simp
  · exact afterColumn_ne_complete

end

theorem isResidual : IsResidual (step limits) (residual limits) where
  taken {s s' t ts items} h hr := by
    cases s with
    | start =>
      obtain ⟨-, hp, -⟩ | ⟨inner, hinner, rfl⟩ | ⟨hp, hroom, name, hname, rfl⟩ := item_eq_taken h
      · exact absurd rfl hp
      · -- no column can follow a constraint, so there would be none at all
        obtain ⟨_, _, _, -, -, _, _, _, _, -, -, -, -, hcolumns, -⟩ := constraint_cons hinner hr
        exact absurd rfl hcolumns
      · obtain ⟨us, _, w, hts, hus, more, vs, comma, closing, ws, cs, rfl, hmore, hvs, hcomma,
          hclosing, hlength, -, rfl⟩ := column_cons hname hp hr
        rw [hts]
        refine ⟨us ++ more ++ vs ++ comma, closing, w :: ws, cs, by simp,
          .intro hus hmore hvs hcomma, hclosing, ?_, ?_⟩
        · simp only [Progress.addColumn, Progress.start] at hlength hroom
          simp only [List.length_cons]
          omega
        · simp [Progress.addColumn, Progress.start]
    | item p =>
      intro comma hcomma
      obtain ⟨ht, hp, rfl⟩ | ⟨inner, hinner, rfl⟩ | ⟨hp, hroom, name, hname, rfl⟩ := item_eq_taken h
      · obtain ⟨rfl, rfl⟩ := hr
        exact itemRest_of_close hp (.present hcomma) ht
      · exact itemRest_of_constraint hcomma hinner hr
      · obtain ⟨us, _, w, hts, hus, more, vs, last, closing, ws, cs, rfl, hmore, hvs, hlast,
          hclosing, hlength, hne, rfl⟩ := column_cons hname hp hr
        rw [hts]
        refine itemRest_of_nil hp ?_
        refine ⟨comma :: us ++ more, vs, last, closing, w :: ws, cs, by simp,
          .cons hcomma hus hmore, hvs, hlast, hclosing, ?_, hne, ?_⟩
        · simp only [Progress.addColumn] at hlength
          simp only [List.length_cons]
          omega
        · simp [Progress.addColumn]
    | column p column =>
      refine Sequel.of_andThen Column.isResidual h ?_ fun c h => residual_afterColumn h hr
      rintro column' rfl
      exact hr
    | constraint p constraint =>
      refine Sequel.of_andThen TableConstraint.isResidual h ?_ fun r h => ?_
      · rintro constraint' rfl
        exact hr
      · split at h
        · rename_i hheld
          exact ⟨hheld, residual_afterConstraint (by simp [Progress.addConstraint]) h hr⟩
        · unfold requireColumn at h
          split at h <;> simp at h
    | closed items => simp [step] at h
  complete {s t items} h := by
    cases s with
    | start => exact absurd h item_ne_complete
    | item p => exact absurd h item_ne_complete
    | column p column =>
      obtain ⟨c, -, h⟩ := Verdict.andThen_eq_complete.1 h
      exact absurd h afterColumn_ne_complete
    | constraint p constraint =>
      obtain ⟨r, -, h⟩ := Verdict.andThen_eq_complete.1 h
      split at h
      · exact absurd h afterConstraint_ne_complete
      · unfold requireColumn at h
        split at h <;> simp at h
    | closed items =>
      obtain rfl := Verdict.complete.inj h
      exact ⟨rfl, rfl⟩

-- ════════════════════════════════════════════════════════════════════════
-- What is derived is taken
-- ════════════════════════════════════════════════════════════════════════

/-- A token behind a constraint: what ends a column, or what begins a constraint. -/
def MeetsItem (t : Token) : Prop :=
  Column.EndsColumn t ∨ ∃ s, TableConstraint.start? t = some s

section

variable {p : Progress} {e t : Token} {ts us rest : List Token} {items : Items}

theorem start?_of_endsColumn (h : Column.EndsColumn t) : TableConstraint.start? t = none := by
  obtain h | h := h <;> simp [TableConstraint.start?, h]

theorem MeetsItem.not_continuesClause (h : MeetsItem t) : t.continuesClause = false := by
  obtain h | ⟨s, h⟩ := h
  · exact h.not_continuesClause
  · unfold TableConstraint.start? at h
    split at h
    · simp_all [Token.continuesClause]
    · rename_i word _ hword
      cases word <;> simp_all [Token.continuesClause, TableConstraint.rule?]
    · simp at h

theorem MeetsItem.kind_ne_not (h : MeetsItem t) : t.kind ≠ .keyword .not := by
  intro hkind
  obtain (h | h) | ⟨s, h⟩ := h
  · simp [hkind] at h
  · simp [hkind] at h
  · simp [TableConstraint.start?, hkind, TableConstraint.rule?] at h

theorem start?_of_name? {name : String} (h : t.name? = some name) :
    TableConstraint.start? t = none := by
  unfold TableConstraint.start?
  split
  · simp_all [Token.name?, Keyword.isReserved]
  · rename_i word _ hword
    cases word <;> simp_all [Token.name?, Keyword.isReserved, TableConstraint.rule?]
  · rfl

theorem kind_ne_rightParen_of_start? {s : TableConstraint.State}
    (h : TableConstraint.start? t = some s) : t.kind ≠ .rightParen := by
  intro hkind
  simp [TableConstraint.start?, hkind] at h

theorem item_of_start? {s : TableConstraint.State} (h : TableConstraint.start? t = some s) :
    item limits p t = .taken (.constraint p s) := by
  have hne := kind_ne_rightParen_of_start? h
  simp [item, hne, h]

theorem item_of_name? {name : String} (h : t.name? = some name) (hp : p.constraints = [])
    (hroom : 0 < p.room) : item limits p t = .taken (.column p (.ofName name)) := by
  have hne : t.kind ≠ .rightParen := by
    intro hkind
    simp [Token.name?, hkind] at h
  have hpos : p.room ≠ 0 := by omega
  simp [item, hne, start?_of_name? h, hp, beginColumn, hpos, takeName, h]

theorem afterConstraint_of_endsColumn (h : Column.EndsColumn t) :
    afterConstraint p t = afterColumn p t := by
  unfold afterConstraint
  rw [start?_of_endsColumn h]

/-- The end of a body is taken, with a comma before it or without one. -/
private theorem leads_close {comma : List Token} {closing : Token} (hp : p.columns ≠ [])
    (hcomma : OptionalComma comma) (hclosing : closing.kind = .rightParen) :
    Leads (step limits) (afterColumn p ((comma ++ [closing]).headD e)) (comma ++ [closing]) e
      p.items := by
  have hfinish : finish p closing = .taken (.closed p.items) := by
    simp [finish, requireColumn, hp, takeKind, hclosing]
  cases hcomma with
  | absent =>
    exact ⟨.closed p.items, by simp [afterColumn, hclosing, hfinish], by simp [step]⟩
  | present hcomma =>
    refine ⟨.item p, by simp [afterColumn, hcomma], ?_⟩
    exact Accepts.take (n := .closed p.items) (by simp [step, item, hclosing, hp, hfinish])
      (by simp [step])

theorem endsColumn_of_close {comma : List Token} {closing : Token} (hcomma : OptionalComma comma)
    (hclosing : closing.kind = .rightParen) :
    Column.EndsColumn ((comma ++ [closing]).headD e) := by
  cases hcomma with
  | absent => exact .inr hclosing
  | present hcomma => exact .inl hcomma

/-- A constraint is taken behind its first token, and what follows behind it. -/
private theorem accepts_constraint {s : TableConstraint.State} {c : CreateTable.TableConstraint}
    (h : Stops (TableConstraint.step limits) s ts (rest.headD e)
      fun heldNot => { constraint := c, heldNot })
    (hmeets : MeetsItem (rest.headD e))
    (hrest : Leads (step limits) (afterConstraint (p.addConstraint c) (rest.headD e)) rest e
      items) :
    Accepts (step limits) (.constraint p s) (ts ++ rest) e items := by
  obtain h | ⟨hnot, -⟩ := h
  · exact Accepts.part (TableConstraint.step limits) _ (fun _ _ => rfl) h hrest
  · exact absurd hnot hmeets.kind_ne_not

/-- What stands behind a constraint begins with a token that ends it. -/
theorem meetsItem_of_moreConstraints {comma : List Token} {closing : Token}
    {cs : List CreateTable.TableConstraint} (h : MoreConstraints limits.maxExprDepth us cs)
    (hcomma : OptionalComma comma) (hclosing : closing.kind = .rightParen) :
    MeetsItem ((us ++ (comma ++ [closing])).headD e) := by
  cases h with
  | nil => exact .inl (endsColumn_of_close hcomma hclosing)
  | cons hfirst hts _ =>
    cases hfirst with
    | present hfirst => exact .inl (.inl hfirst)
    | absent =>
      obtain ⟨t, us, s, rfl, hs, -⟩ := TableConstraint.stops_of_derives hts
        (endsColumn_of_close (e := e) hcomma hclosing).not_continuesClause
      exact .inr ⟨s, hs⟩

private theorem leads_constraints {comma : List Token} {closing : Token}
    {cs : List CreateTable.TableConstraint} (h : MoreConstraints limits.maxExprDepth us cs)
    (hcomma : OptionalComma comma) (hclosing : closing.kind = .rightParen)
    (hp : p.columns ≠ []) :
    Leads (step limits) (afterConstraint p ((us ++ (comma ++ [closing])).headD e))
      (us ++ (comma ++ [closing])) e
      { columns := p.columns.reverse, constraints := p.constraints.reverse ++ cs } := by
  induction h generalizing p with
  | nil =>
    rw [List.nil_append, afterConstraint_of_endsColumn (endsColumn_of_close hcomma hclosing),
      List.append_nil]
    exact leads_close hp hcomma hclosing
  | @cons first ts rest c cs hfirst hts hrest ih =>
    have hmeets := meetsItem_of_moreConstraints (e := e) hrest hcomma hclosing
    obtain ⟨t, us, s, rfl, hs, hus⟩ :=
      TableConstraint.stops_of_derives hts hmeets.not_continuesClause
    have hnext := accepts_constraint (p := p) hus hmeets (ih (by simpa [Progress.addConstraint]))
    rw [Progress.addConstraint, List.reverse_cons, List.append_assoc, List.singleton_append]
      at hnext
    rw [List.append_assoc, List.append_assoc]
    cases hfirst with
    | absent => exact ⟨.constraint p s, by simp [afterConstraint, hs], hnext⟩
    | present hfirst =>
      refine ⟨.item p, ?_, Accepts.take (item_of_start? hs) hnext⟩
      simp [afterConstraint, TableConstraint.start?, hfirst, afterColumn]

/-- What stands behind a column begins with a token that ends it. -/
theorem endsColumn_of_constraints {comma : List Token} {closing : Token}
    {cs : List CreateTable.TableConstraint} (h : Constraints limits.maxExprDepth us cs)
    (hcomma : OptionalComma comma) (hclosing : closing.kind = .rightParen) :
    Column.EndsColumn ((us ++ (comma ++ [closing])).headD e) := by
  cases h with
  | absent => exact endsColumn_of_close hcomma hclosing
  | present hfirst _ _ => exact .inl hfirst

private theorem leads_firstConstraints {comma : List Token} {closing : Token}
    {cs : List CreateTable.TableConstraint} (h : Constraints limits.maxExprDepth us cs)
    (hcomma : OptionalComma comma) (hclosing : closing.kind = .rightParen)
    (hp : p.columns ≠ []) (hnil : p.constraints = []) :
    Leads (step limits) (afterColumn p ((us ++ (comma ++ [closing])).headD e))
      (us ++ (comma ++ [closing])) e { columns := p.columns.reverse, constraints := cs } := by
  cases h with
  | absent =>
    have hclose : Leads (step limits) _ _ e _ := leads_close hp hcomma hclosing
    simpa [Progress.items, hnil] using hclose
  | @present first ts rest c cs hfirst hts hrest =>
    have hall := leads_constraints (p := p) (e := e)
      (.cons (.present hfirst) hts hrest) hcomma hclosing hp
    rw [hnil, List.reverse_nil, List.nil_append] at hall
    have heq := afterConstraint_of_endsColumn (p := p) (.inl hfirst)
    exact heq ▸ hall

/-- A column is taken from its name on, and what follows behind it. -/
private theorem accepts_column {w : WrittenColumn} (h : Column.Derives limits.maxExprDepth ts w)
    (hends : Column.EndsColumn (rest.headD e))
    (hrest : Leads (step limits) (afterColumn (p.addColumn w.column) (rest.headD e)) rest e items) :
    ∃ t us, ts = t :: us ∧ t.name? = some w.name ∧
      Accepts (step limits) (.column p (.ofName w.name)) (us ++ rest) e items := by
  obtain ⟨t, us, rfl, hname, hus⟩ := Column.accepts_of_derives h hends
  refine ⟨t, us, rfl, hname, ?_⟩
  exact Accepts.part (Column.step limits) (fun c => afterColumn (p.addColumn c)) (fun _ _ => rfl)
    hus hrest

private theorem leads_columns {comma more : List Token} {closing : Token}
    {cs : List CreateTable.TableConstraint} {ws : List WrittenColumn}
    (h : MoreColumns limits.maxExprDepth more ws) (hus : Constraints limits.maxExprDepth us cs)
    (hcomma : OptionalComma comma) (hclosing : closing.kind = .rightParen)
    (hp : p.columns ≠ []) (hnil : p.constraints = []) (hroom : ws.length ≤ p.room) :
    Column.EndsColumn ((more ++ (us ++ (comma ++ [closing]))).headD e) ∧
    Leads (step limits) (afterColumn p ((more ++ (us ++ (comma ++ [closing]))).headD e))
      (more ++ (us ++ (comma ++ [closing]))) e
      { columns := p.columns.reverse ++ ws.map WrittenColumn.column, constraints := cs } := by
  induction h generalizing p with
  | nil =>
    rw [List.nil_append, List.map_nil, List.append_nil]
    exact ⟨endsColumn_of_constraints hus hcomma hclosing,
      leads_firstConstraints hus hcomma hclosing hp hnil⟩
  | @cons first ts rest w ws hfirst hts hrest ih =>
    rw [List.length_cons] at hroom
    obtain ⟨hends, hlead⟩ := ih (p := p.addColumn w.column) (by simp [Progress.addColumn]) hnil
      (by simp only [Progress.addColumn]; omega)
    obtain ⟨t, vs, rfl, hname, hvs⟩ := accepts_column (p := p) hts hends hlead
    rw [List.append_assoc]
    refine ⟨.inl hfirst, .item p, by simp [afterColumn, hfirst], ?_⟩
    refine Accepts.take (item_of_name? hname hnil (by omega)) ?_
    simpa [Progress.addColumn] using hvs

/-- A body with its closing parenthesis is taken. -/
theorem accepts_of_closed (h : Closed limits ts items) (e : Token) :
    Accepts (step limits) .start ts e items := by
  obtain ⟨_, closing, _, cs, rfl, hbody, hclosing, hlength, rfl⟩ := h
  obtain @⟨ts, more, us, comma, w, ws, _, hts, hmore, hus, hcomma⟩ := hbody
  rw [List.length_cons] at hlength
  obtain ⟨first, hfirst⟩ : ∃ first, (ts ++ (more ++ (us ++ (comma ++ [closing])))).head? =
      some first := by
    cases hts
    exact ⟨_, rfl⟩
  obtain ⟨hends, hlead⟩ := leads_columns (e := e)
    (p := (Progress.start limits first).addColumn w.column) hmore hus hcomma hclosing
    (by simp [Progress.addColumn]) rfl (by simp only [Progress.addColumn, Progress.start]; omega)
  obtain ⟨t, vs, rfl, hname, hvs⟩ := accepts_column hts hends hlead
  obtain rfl : t = first := by simpa using hfirst
  have htake : item limits (.start limits t) t = _ :=
    item_of_name? hname rfl (by simp only [Progress.start]; omega)
  simpa [Progress.addColumn, Progress.start] using Accepts.take (s := State.start) htake hvs

end

end CreateTable.Grammar.Body
