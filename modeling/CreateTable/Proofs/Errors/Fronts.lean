import CreateTable.Proofs.Errors.Separators

/-!
# Fronts of statements

How far a statement has been read, said by the rules of the grammar, and the state that the reader
is then in: behind the header, and in a column behind whole columns.

## Main definitions

- `Column.Front` — the rule for a column up to a place where a constraint may begin
- `Statement.IfSettled` — the table is not named by a bare `IF`, whatever follows

## Main statements

- `Statement.takes_of_header` — a header is taken
- `Statement.not_namesTableIf_of_takes` — no other header is
- `Column.front_of_takes`, `Column.takes_of_front` — a front is what has been taken between
  constraints
- `Body.takes_of_leadingColumns` — whole columns are taken
- `Statement.takes_of_leadingColumns` — so are a header and whole columns
-/

namespace CreateTable.Grammar

variable {limits : Limits} {t u : Token} {ts us : List Token}

-- ════════════════════════════════════════════════════════════════════════
-- Columns
-- ════════════════════════════════════════════════════════════════════════

namespace Column

/-- `name [type] {[CONSTRAINT name] constraint} [CONSTRAINT name]` -/
inductive Front (depth : Nat) : List Token → Prop
  | intro {ts names : List Token} {w : WrittenColumn} {name : Option String} :
    Derives depth ts w → ConstraintName names name → Front depth (ts ++ names)

/-- A state in which a column that is computed would be found to be so. -/
def MayCompute (limits : Limits) (s : State) : Prop :=
  (∃ column, s = .named column) ∨ ∃ c, Between limits s c

variable {s s' : State} {c : CreateTable.Column} {name : String}

theorem step_of_mayCompute (hs : MayCompute limits s)
    (ht : t.kind = .keyword .generated ∨ t.kind = .keyword .as) :
    step limits s t = .refused (t.error .generatedColumn) := by
  obtain ⟨column, rfl⟩ | ⟨c, hs⟩ := hs
  · exact beginConstraint_of_computed ht
  · rw [hs t (.inr (.inr ht))]
    exact betweenConstraints_of_computed ht

/-- What has been taken between constraints is a whole column. -/
theorem derives_of_takes (hname : t.name? = some name) (h : Takes (step limits) (.ofName name) us s)
    (hs : Between limits s c) : ∃ w, Derives limits.maxExprDepth (t :: us) w := by
  have hcomplete : step limits s .comma = .complete c := by
    rw [hs .comma (.inl rfl)]
    exact betweenConstraints_of_comma rfl
  obtain ⟨w, hw, -⟩ :=
    derives_of_residual hname (isResidual.of_accepts (h.accepts hcomplete))
  exact ⟨w, hw⟩

/-- How a state is entered that has to do with the name of a constraint. -/
def Entry (s : State) (t : Token) : State → Prop
  | .named _ => ∃ column name, s = .constraintName column ∧ t.name? = some name
  | .constraintName _ => t.kind = .keyword .constraint
  | _ => True

theorem entry_betweenConstraints (h : betweenConstraints c t = .taken s') : Entry s t s' := by
  unfold betweenConstraints at h
  split at h
  · rename_i hword
    obtain rfl := Verdict.taken.inj h
    exact Token.isKeyword_iff.1 hword
  · obtain h | ⟨word, inner, -, -, rfl⟩ := beginConstraint_eq_taken h
    · cases h
    · trivial

theorem entry_of_step (h : step limits s t = .taken s') : Entry s t s' := by
  cases s with
  | type column words =>
    simp only [step] at h
    split at h
    · obtain rfl := Verdict.taken.inj h
      trivial
    · unfold afterType at h
      split at h
      · exact entry_betweenConstraints h
      · dsimp only at h
        split at h
        · obtain rfl := Verdict.taken.inj h
          trivial
        · exact entry_betweenConstraints h
  | size column number =>
    obtain ⟨number', -, rfl⟩ | ⟨size, -, h⟩ := Verdict.andThen_eq_taken.1 h
    · trivial
    · unfold afterSize at h
      split at h
      · obtain rfl := Verdict.taken.inj h
        trivial
      · obtain rfl := Verdict.taken.inj h
        trivial
      · exact absurd h (Token.refuse_ne_taken _ _ _)
  | scale column size number =>
    obtain ⟨number', -, rfl⟩ | ⟨scale, -, h⟩ := Verdict.andThen_eq_taken.1 h
    · trivial
    · obtain ⟨-, rfl⟩ := takeKind_eq_taken.1 h
      trivial
  | constraints column => exact entry_betweenConstraints h
  | constraintName column =>
    obtain ⟨name, hname, rfl⟩ := takeName_eq_taken.1 h
    exact ⟨column, name, rfl, hname⟩
  | named column =>
    obtain h | ⟨word, inner, -, -, rfl⟩ := beginConstraint_eq_taken h
    · exact absurd h (Token.refuse_ne_taken _ _ _)
    · trivial
  | constraint column constraint =>
    obtain ⟨constraint', -, rfl⟩ | ⟨r, -, h⟩ := Verdict.andThen_eq_taken.1 h
    · trivial
    · unfold afterConstraint at h
      dsimp only at h
      split at h
      · exact entry_betweenConstraints h
      · obtain ⟨-, rfl⟩ := takeKeyword_eq_taken.1 h
        trivial

/-- What has been taken where a column may be found to be computed. -/
theorem front_of_takes (hname : t.name? = some name) (h : Takes (step limits) (.ofName name) us s)
    (hs : MayCompute limits s) : Front limits.maxExprDepth (t :: us) := by
  obtain ⟨column, rfl⟩ | ⟨c, hs⟩ := hs
  · -- the last two tokens are `CONSTRAINT` and a name
    obtain ⟨front, last, n, rfl, hfront, hlast⟩ := h.exists_last (by simp [State.ofName])
    obtain ⟨column', name', rfl, hname'⟩ := entry_of_step hlast
    obtain ⟨front, word, n, rfl, hfront, hstep⟩ := hfront.exists_last (by simp [State.ofName])
    have hword : word.kind = .keyword .constraint := entry_of_step hstep
    obtain ⟨w, hw⟩ := derives_of_takes hname hfront (between_of_taken hword hstep)
    rw [List.append_assoc, ← List.cons_append]
    exact .intro hw (.present hword hname')
  · obtain ⟨w, hw⟩ := derives_of_takes hname h hs
    have hfront := Front.intro hw .absent
    rwa [List.append_nil] at hfront

/-- A column is taken from its name on. -/
theorem takes_of_derives {w : WrittenColumn} (h : Derives limits.maxExprDepth ts w) :
    ∃ t us s, ts = t :: us ∧ t.name? = some w.name ∧ Takes (step limits) (.ofName w.name) us s ∧
      Between limits s w.column := by
  have hcomma : Token.comma.kind = .comma := rfl
  obtain ⟨t, us, rfl, hname, haccepts⟩ := accepts_of_derives h (.inl hcomma)
  obtain ⟨s, htakes, hcomplete⟩ := haccepts.takes
  exact ⟨t, us, s, rfl, hname, htakes, between_of_complete hcomma hcomplete⟩

/-- A front is taken from its name on. -/
theorem takes_of_front (h : Front limits.maxExprDepth ts) :
    ∃ t us s name, ts = t :: us ∧ t.name? = some name ∧ Takes (step limits) (.ofName name) us s ∧
      MayCompute limits s := by
  obtain @⟨_, _, w, _, hderives, hnames⟩ := h
  obtain ⟨t, us, s, rfl, hname, htakes, hs⟩ := takes_of_derives hderives
  cases hnames with
  | absent => exact ⟨t, us, s, _, List.append_nil _, hname, htakes, .inr ⟨_, hs⟩⟩
  | @present word last name hword hlast =>
    have hfirst : step limits s word = .taken (.constraintName w.column) := by
      rw [hs word (.inr (.inl hword))]
      exact betweenConstraints_of_constraint hword
    have hsecond : step limits (.constraintName w.column) last =
        .taken (.named { w.column with constraintName := some name }) :=
      takeName_eq_taken.2 ⟨name, hlast, rfl⟩
    refine ⟨t, us ++ [word] ++ [last], _, _, ?_, hname, (htakes.snoc hfirst).snoc hsecond,
      .inl ⟨_, rfl⟩⟩
    simp

end Column

-- ════════════════════════════════════════════════════════════════════════
-- Bodies
-- ════════════════════════════════════════════════════════════════════════

namespace Body

variable {name : String} {count : Nat}

/-- Whole columns are taken, and behind them the name of another one. -/
theorem takes_of_leadingColumns (h : LeadingColumns limits.maxExprDepth ts count)
    (hcount : count < limits.maxColumns) (hname : t.name? = some name) :
    ∃ p, p.constraints = [] ∧ p.room + count = limits.maxColumns ∧
      Takes (step limits) .start (ts ++ [t]) (.column p (.ofName name)) := by
  induction h generalizing t name with
  | nil =>
    have htake : item limits (.start limits t) t = _ := item_of_name? hname rfl hcount
    exact ⟨.start limits t, rfl, rfl, _, htake, rfl⟩
  | @snoc ts us comma count w _ hcolumn hcomma ih =>
    obtain ⟨first, vs, s, rfl, hfirst, hvs, hs⟩ := Column.takes_of_derives hcolumn
    obtain ⟨p, hp, hroom, htakes⟩ := ih (by omega) hfirst
    have hcolumn : Takes (step limits) (.column p (.ofName w.name)) vs (.column p s) :=
      hvs.part (fun column => afterColumn (p.addColumn column)) fun _ _ => rfl
    have hstep : step limits (.column p s) comma = .taken (.item (p.addColumn w.column)) := by
      simp only [step, hs comma (.inl hcomma), Column.betweenConstraints_of_comma hcomma,
        Verdict.andThen_complete, afterColumn, hcomma, if_true]
    have htake : step limits (.item (p.addColumn w.column)) t = _ :=
      item_of_name? hname hp (by simp only [Progress.addColumn]; omega)
    have hall := ((takes_append.2 ⟨_, htakes, hcolumn⟩).snoc hstep).snoc htake
    refine ⟨p.addColumn w.column, hp, ?_, ?_⟩
    · simp only [Progress.addColumn]
      omega
    · simpa using hall

end Body

-- ════════════════════════════════════════════════════════════════════════
-- Statements
-- ════════════════════════════════════════════════════════════════════════

namespace Statement

variable {s s' : State}

/-- The table is not named by a bare `IF`, whatever follows. -/
def IfSettled (ts : List Token) : Prop :=
  ∃ words u us, ts = words ++ u :: us ∧ TableWords words ∧
    (u.kind = .keyword .if → ∃ v vs, us = v :: vs ∧ v.kind = .keyword .not)

theorem IfSettled.append (h : IfSettled ts) (us : List Token) : IfSettled (ts ++ us) := by
  obtain ⟨words, u, vs, rfl, hwords, hif⟩ := h
  refine ⟨words, u, vs ++ us, by simp, hwords, fun hu => ?_⟩
  obtain ⟨v, vs, rfl, hv⟩ := hif hu
  exact ⟨v, vs ++ us, rfl, hv⟩

theorem IfSettled.not_namesTableIf (h : IfSettled ts) : ¬NamesTableIf ts := by
  obtain ⟨words, u, us, rfl, ⟨hcreate, htemps, hword⟩, hif⟩ := h
  rintro ⟨word, rest, htail, hkind, hrest⟩
  rw [List.append_assoc, List.singleton_append, tail_dropWhile hcreate htemps hword] at htail
  obtain ⟨rfl, rfl⟩ := List.cons.inj htail
  obtain ⟨v, vs, rfl, hv⟩ := hif hkind
  exact hrest v rfl hv

/-- A bare `IF` names the table whatever follows, unless it is a `NOT`. -/
theorem NamesTableIf.append {ts : List Token} {t : Token} (h : NamesTableIf ts)
    (ht : t.kind ≠ .keyword .not) (us : List Token) : NamesTableIf (ts ++ t :: us) := by
  obtain ⟨word, rest, htail, hword, hrest⟩ := h
  have hne : ts.dropWhile (fun t => !t.isKeyword .table) ≠ [] := by
    intro hnil
    rw [hnil] at htail
    cases htail
  refine ⟨word, rest ++ t :: us, ?_, hword, ?_⟩
  · rw [List.dropWhile_append, if_neg (by simpa using hne), List.tail_append_of_ne_nil hne, htail,
      List.cons_append]
  · cases rest with
    | nil => simpa using ht
    | cons u rest => exact hrest

/-- What is settled about the name of the table in each state. -/
def NameSettled (ts : List Token) : State → Prop
  | .start | .created | .temporary | .table _ | .ifWord _ => True
  | _ => IfSettled ts

theorem IfSettled.nameSettled (h : IfSettled ts) (s : State) : NameSettled ts s := by
  cases s <;> first | exact h | trivial

theorem nameSettled_step (hbehind : Behind limits ts s) (h : NameSettled ts s)
    (hstep : step limits s t = .taken s') : NameSettled (ts ++ [t]) s' := by
  cases transition_of_taken hstep with
  | create | temporary | tableWord | temporaryTable | ifWord => trivial
  | nameOrSchema hif => exact ⟨ts, t, [], rfl, hbehind, fun hkind => absurd hkind hif⟩
  | notWord hnot =>
    obtain ⟨words, word, rfl, hwords, -⟩ := hbehind
    exact ⟨words, word, [t], by simp, hwords, fun _ => ⟨t, [], rfl, hnot⟩⟩
  | _ =>
    have hts : IfSettled ts := h
    exact (hts.append [t]).nameSettled _

theorem nameSettled_of_takes (h : Takes (step limits) .start ts s) : NameSettled ts s := by
  have hall : Behind limits ts s ∧ NameSettled ts s := by
    refine h.invariant (fun ts s => Behind limits ts s ∧ NameSettled ts s) ⟨rfl, trivial⟩ ?_
    rintro us n t n' ⟨hbehind, hsettled⟩ hstep
    exact ⟨behind_step hbehind hstep, nameSettled_step hbehind hsettled hstep⟩
  exact hall.2

/-- The words before the name of a table are taken. -/
theorem takes_of_tableWords (limits : Limits) (h : TableWords ts) :
    ∃ table, Takes (step limits) .start ts (.table table) := by
  obtain @⟨create, word, temps, temporary, hcreate, htemps, hword⟩ := h
  have hfirst : step limits .start create = .taken .created :=
    takeKeyword_eq_taken.2 ⟨hcreate, rfl⟩
  cases htemps with
  | absent =>
    exact ⟨{}, .created, hfirst, .table {}, by simp [step, tableWord, hword], rfl⟩
  | @present temp htemp =>
    refine ⟨{ temporary := true }, .created, hfirst, .temporary, ?_, .table { temporary := true },
      by simp [step, tableWord, hword], rfl⟩
    obtain htemp | htemp := htemp <;> simp [step, htemp]

/-- A state behind the name of the table, or behind a name that may be its. -/
def BehindTableName (limits : Limits) (s : State) : Prop :=
  ∃ table, ∀ t : Token, t.kind ≠ .dot → step limits s t = afterName table t

/-- The name of a table is taken where a name is due. -/
theorem takes_of_tableName (limits : Limits) {names : List Token} {schema : Option String}
    {name : String} (h : TableName names schema name) (table : Table) :
    ∃ s, Takes (step limits) (.name table) names s ∧ BehindTableName limits s := by
  have hnamed : ∀ {table name}, BehindTableName limits (.named table name) := by
    intro table name
    refine ⟨{ table with name }, fun t ht => ?_⟩
    simp only [step, ht, if_false]
  cases h with
  | plain hname =>
    exact ⟨.named table name, ⟨_, takeName_eq_taken.2 ⟨name, hname, rfl⟩, rfl⟩, hnamed⟩
  | @qualified first dot last schema _ hschema hdot hname =>
    have hfirst : step limits (.name table) first = .taken (.named table schema) :=
      takeName_eq_taken.2 ⟨schema, hschema, rfl⟩
    have hsecond : step limits (.named table schema) dot =
        .taken (.qualified { table with schema := some schema }) := by
      simp only [step, hdot, if_true]
    have hthird : step limits (.qualified { table with schema := some schema }) last =
        .taken (.bodyOpen { table with schema := some schema, name }) :=
      takeName_eq_taken.2 ⟨name, hname, rfl⟩
    exact ⟨_, ⟨_, hfirst, _, hsecond, _, hthird, rfl⟩, _, fun _ _ => rfl⟩

/-- Where `IF` does not stand, a name may stand behind `TABLE` as well as behind `EXISTS`. -/
theorem takes_of_head_ne_if {table : Table} (h : Takes (step limits) (.name table) ts s)
    (hhead : ∃ t us, ts = t :: us ∧ t.kind ≠ .keyword .if) :
    Takes (step limits) (.table table) ts s := by
  obtain ⟨t, us, rfl, hif⟩ := hhead
  obtain ⟨n, hn, hus⟩ := h
  refine ⟨n, ?_, hus⟩
  simp only [step, Token.isKeyword_iff, hif, if_false]
  exact hn

/-- A name that is not the bare word `IF`. -/
theorem head_ne_if {words names : List Token} {schema : Option String} {name : String}
    (hwords : TableWords words) (hnames : TableName names schema name)
    (hif : ¬NamesTableIf (words ++ names)) : ∃ t us, names = t :: us ∧ t.kind ≠ .keyword .if := by
  obtain ⟨hcreate, htemps, hword⟩ := hwords
  rw [List.append_assoc, List.singleton_append] at hif
  have htail := tail_dropWhile hcreate htemps hword names
  cases hnames with
  | plain _ => exact ⟨_, _, rfl, fun hkind => hif ⟨_, _, htail, hkind, by simp⟩⟩
  | qualified _ hdot _ => exact ⟨_, _, rfl, fun hkind => hif ⟨_, _, htail, hkind, by simp [hdot]⟩⟩

/-- A header is taken, unless it gives the table the bare name `IF`. -/
theorem takes_of_header (limits : Limits) (h : Header ts) (hif : ¬NamesTableIf ts) :
    ∃ s, Takes (step limits) .start ts s ∧ BehindTableName limits s := by
  obtain @⟨words, ifs, names, ifNotExists, schema, name, hwords, hifs, hnames⟩ := h
  obtain ⟨table, htable⟩ := takes_of_tableWords limits hwords
  cases hifs with
  | absent =>
    obtain ⟨s, htakes, hs⟩ := takes_of_tableName limits hnames table
    rw [List.append_nil] at hif ⊢
    refine ⟨s, takes_append.2 ⟨.table table, htable, ?_⟩, hs⟩
    exact takes_of_head_ne_if htakes (head_ne_if hwords hnames hif)
  | @present word not exist hword hnot hexist =>
    obtain ⟨s, htakes, hs⟩ :=
      takes_of_tableName limits hnames { table with ifNotExists := true }
    have hfirst : step limits (.table table) word = .taken (.ifWord table) := by
      simp [step, hword]
    have hsecond : step limits (.ifWord table) not = .taken (.ifNot table) :=
      takeKeyword_eq_taken.2 ⟨hnot, rfl⟩
    have hthird : step limits (.ifNot table) exist =
        .taken (.name { table with ifNotExists := true }) :=
      takeKeyword_eq_taken.2 ⟨hexist, rfl⟩
    have hwords := ((htable.snoc hfirst).snoc hsecond).snoc hthird
    exact ⟨s, takes_append.2 ⟨_, by simpa using hwords, htakes⟩, hs⟩

/-- A header and whole columns are taken, and behind them the name of another column. -/
theorem takes_of_leadingColumns {header columns : List Token} {opening : Token} {count : Nat}
    {name : String} (hheader : Header header) (hif : ¬NamesTableIf header)
    (hopening : opening.kind = .leftParen)
    (hcolumns : Body.LeadingColumns limits.maxExprDepth columns count)
    (hcount : count < limits.maxColumns) (hname : t.name? = some name) :
    ∃ table p, Takes (step limits) .start (header ++ opening :: (columns ++ [t]))
      (.body table (.column p (.ofName name))) := by
  obtain ⟨s, htakes, table, hs⟩ := takes_of_header limits hheader hif
  have hopen : step limits s opening = .taken (.body table .start) := by
    rw [hs opening (by simp [hopening])]
    simp [afterName, takeKind, hopening]
  obtain ⟨p, -, -, hleading⟩ := Body.takes_of_leadingColumns hcolumns hcount hname
  have hbody : Takes (step limits) (.body table .start) (columns ++ [t])
      (.body table (.column p (.ofName name))) := hleading.part _ fun _ _ => rfl
  exact ⟨table, p, takes_append.2 ⟨s, htakes, _, hopen, hbody⟩⟩

end Statement

end CreateTable.Grammar
