import CreateTable.Proofs.Grammar.Body

/-!
# The reader of statements

Up to the end of the text, the reader takes what the rule for statements derives within the limits,
but for statements in which the bare word `IF` names the table.

## Main definitions

- `Statement.Transition` — the tokens that are taken in each state of the reader
- `Statement.residual` — what is due in each state
- `Statement.Admits` — the statements that are read

## Main statements

- `Statement.transition_of_taken`, `Statement.step_eq_complete` — what a step does
- `Statement.accepts_iff` — what is taken before the end of the text
-/

namespace CreateTable.Grammar.Statement

variable {limits : Limits}

-- ════════════════════════════════════════════════════════════════════════
-- What a step takes
-- ════════════════════════════════════════════════════════════════════════

/-- A token that begins an option, and the state behind it. -/
inductive BeginsOption (table : Table) (t : Token) : State → Prop
  | without : t.kind = .keyword .without → BeginsOption table t (.without table)
  | strict : t.isBareWord "STRICT" → BeginsOption table t (.optionEnd (table.withOption .strict))

/-- A token that is taken, with the states before and behind it. -/
inductive Transition (limits : Limits) (t : Token) : State → State → Prop
  | create : t.kind = .keyword .create → Transition limits t .start .created
  | temporary : t.kind = .keyword .temp ∨ t.kind = .keyword .temporary →
    Transition limits t .created .temporary
  | tableWord : t.kind = .keyword .table → Transition limits t .created (.table {})
  | temporaryTable : t.kind = .keyword .table →
    Transition limits t .temporary (.table { temporary := true })
  | ifWord {table : Table} : t.kind = .keyword .if →
    Transition limits t (.table table) (.ifWord table)
  | notWord {table : Table} : t.kind = .keyword .not →
    Transition limits t (.ifWord table) (.ifNot table)
  | existsWord {table : Table} : t.kind = .keyword .exists →
    Transition limits t (.ifNot table) (.name { table with ifNotExists := true })
  | nameOrSchema {table : Table} {name : String} : t.kind ≠ .keyword .if → t.name? = some name →
    Transition limits t (.table table) (.named table name)
  | nameBehindExists {table : Table} {name : String} : t.name? = some name →
    Transition limits t (.name table) (.named table name)
  | dot {table : Table} {name : String} : t.kind = .dot →
    Transition limits t (.named table name) (.qualified { table with schema := some name })
  | nameBehindSchema {table : Table} {name : String} : t.name? = some name →
    Transition limits t (.qualified table) (.bodyOpen { table with name })
  | opening {table : Table} {name : String} : t.kind = .leftParen →
    Transition limits t (.named table name) (.body { table with name } .start)
  | openingBehindSchema {table : Table} : t.kind = .leftParen →
    Transition limits t (.bodyOpen table) (.body table .start)
  | body {table : Table} {body body' : Body.State} : Body.step limits body t = .taken body' →
    Transition limits t (.body table body) (.body table body')
  | firstOption {table : Table} {body : Body.State} {items : Body.Items} {s : State} :
    Body.step limits body t = .complete items →
    BeginsOption { table with columns := items.columns, constraints := items.constraints } t s →
    Transition limits t (.body table body) s
  | bodyEnd {table : Table} {body : Body.State} {items : Body.Items} :
    Body.step limits body t = .complete items → t.kind = .semicolon →
    Transition limits t (.body table body)
      (.terminated { table with columns := items.columns, constraints := items.constraints })
  | rowid {table : Table} : t.isWord "ROWID" →
    Transition limits t (.without table) (.optionEnd (table.withOption .withoutRowid))
  | comma {table : Table} : t.kind = .comma → Transition limits t (.optionEnd table) (.option table)
  | nextOption {table : Table} {s : State} : BeginsOption table t s →
    Transition limits t (.option table) s
  | optionsEnd {table : Table} : t.kind = .semicolon →
    Transition limits t (.optionEnd table) (.terminated table)
  | semicolon {table : Table} : t.kind = .semicolon →
    Transition limits t (.terminated table) (.terminated table)

section

variable {s s' : State} {table table' : Table} {t : Token} {otherwise : Verdict State Table}

theorem tableWord_eq_taken (h : tableWord table t = .taken s) :
    t.kind = .keyword .table ∧ s = .table table := by
  unfold tableWord at h
  split at h
  · rename_i hword
    exact ⟨hword, (Verdict.taken.inj h).symm⟩
  · split at h <;> simp at h
  · simp at h

theorem tableWord_ne_complete : tableWord table t ≠ .complete table' := by
  unfold tableWord
  split
  · simp
  · split <;> simp
  · simp

theorem afterName_eq_taken (h : afterName table t = .taken s) :
    t.kind = .leftParen ∧ s = .body table .start := by
  unfold afterName at h
  split at h
  · simp at h
  · obtain ⟨ht, rfl⟩ := takeKind_eq_taken.1 h
    exact ⟨ht, rfl⟩

theorem afterName_ne_complete : afterName table t ≠ .complete table' := by
  unfold afterName
  split <;> simp

theorem finish_eq_taken (h : finish table t = .taken s) :
    t.kind = .semicolon ∧ s = .terminated table := by
  unfold finish at h
  split at h
  · rename_i ht
    exact ⟨ht, (Verdict.taken.inj h).symm⟩
  · simp at h
  · simp at h

theorem finish_eq_complete (h : finish table t = .complete table') :
    t.kind = .endOfInput ∧ table' = table := by
  unfold finish at h
  split at h
  · simp at h
  · rename_i ht
    exact ⟨ht, (Verdict.complete.inj h).symm⟩
  · simp at h

theorem beginOption_eq_taken (h : beginOption table t otherwise = .taken s) :
    BeginsOption table t s ∨ otherwise = .taken s := by
  unfold beginOption at h
  split at h
  · rename_i hwithout
    obtain rfl := Verdict.taken.inj h
    exact .inl (.without (Token.isKeyword_iff.1 hwithout))
  · split at h
    · rename_i hstrict
      obtain rfl := Verdict.taken.inj h
      exact .inl (.strict hstrict)
    · exact .inr h

theorem beginOption_eq_complete (h : beginOption table t otherwise = .complete table') :
    otherwise = .complete table' := by
  unfold beginOption at h
  split at h
  · simp at h
  · split at h
    · simp at h
    · exact h

/-- Each step is one of the transitions. -/
theorem transition_of_taken (h : step limits s t = .taken s') : Transition limits t s s' := by
  cases s with
  | start =>
    obtain ⟨hcreate, rfl⟩ := takeKeyword_eq_taken.1 h
    exact .create hcreate
  | created =>
    simp only [step] at h
    split at h
    · rename_i ht
      obtain rfl := Verdict.taken.inj h
      exact .temporary (.inl ht)
    · rename_i ht
      obtain rfl := Verdict.taken.inj h
      exact .temporary (.inr ht)
    · obtain ⟨hword, rfl⟩ := tableWord_eq_taken h
      exact .tableWord hword
  | temporary =>
    obtain ⟨hword, rfl⟩ := tableWord_eq_taken h
    exact .temporaryTable hword
  | table table =>
    simp only [step] at h
    split at h
    · rename_i hif
      obtain rfl := Verdict.taken.inj h
      exact .ifWord (Token.isKeyword_iff.1 hif)
    · rename_i hif
      obtain ⟨name, hname, rfl⟩ := takeName_eq_taken.1 h
      exact .nameOrSchema (by simpa using hif) hname
  | ifWord table =>
    obtain ⟨hnot, rfl⟩ := takeKeyword_eq_taken.1 h
    exact .notWord hnot
  | ifNot table =>
    obtain ⟨hexists, rfl⟩ := takeKeyword_eq_taken.1 h
    exact .existsWord hexists
  | name table =>
    obtain ⟨name, hname, rfl⟩ := takeName_eq_taken.1 h
    exact .nameBehindExists hname
  | named table name =>
    simp only [step] at h
    split at h
    · rename_i hdot
      obtain rfl := Verdict.taken.inj h
      exact .dot hdot
    · obtain ⟨hopening, rfl⟩ := afterName_eq_taken h
      exact .opening hopening
  | qualified table =>
    obtain ⟨name, hname, rfl⟩ := takeName_eq_taken.1 h
    exact .nameBehindSchema hname
  | bodyOpen table =>
    obtain ⟨hopening, rfl⟩ := afterName_eq_taken h
    exact .openingBehindSchema hopening
  | body table body =>
    obtain ⟨body', hbody, rfl⟩ | ⟨items, hbody, h⟩ := Verdict.andThen_eq_taken.1 h
    · exact .body hbody
    · obtain hoption | h := beginOption_eq_taken h
      · exact .firstOption hbody hoption
      · obtain ⟨hend, rfl⟩ := finish_eq_taken h
        exact .bodyEnd hbody hend
  | without table =>
    simp only [step] at h
    split at h
    · rename_i hrowid
      obtain rfl := Verdict.taken.inj h
      exact .rowid hrowid
    · simp at h
  | optionEnd table =>
    simp only [step] at h
    split at h
    · rename_i hcomma
      obtain rfl := Verdict.taken.inj h
      exact .comma hcomma
    · obtain ⟨hend, rfl⟩ := finish_eq_taken h
      exact .optionsEnd hend
  | option table =>
    obtain hoption | h := beginOption_eq_taken h
    · exact .nextOption hoption
    · simp at h
  | terminated table =>
    simp only [step] at h
    split at h
    · rename_i hend
      obtain rfl := Verdict.taken.inj h
      exact .semicolon hend
    · simp at h
    · simp at h

/-- A statement is complete nowhere but at the end of the text, behind a body or what may follow
    it. -/
theorem step_eq_complete (h : step limits s t = .complete table) :
    t.kind = .endOfInput ∧
      ((∃ table' body items, s = .body table' body ∧ Body.step limits body t = .complete items ∧
        table = { table' with columns := items.columns, constraints := items.constraints }) ∨
      s = .optionEnd table ∨ s = .terminated table) := by
  cases s with
  | body table' body =>
    obtain ⟨items, hbody, h⟩ := Verdict.andThen_eq_complete.1 h
    obtain ⟨hend, rfl⟩ := finish_eq_complete (beginOption_eq_complete h)
    exact ⟨hend, .inl ⟨table', body, items, rfl, hbody, rfl⟩⟩
  | optionEnd table' =>
    simp only [step] at h
    split at h
    · simp at h
    · obtain ⟨hend, rfl⟩ := finish_eq_complete h
      exact ⟨hend, .inr (.inl rfl)⟩
  | terminated table' =>
    simp only [step] at h
    split at h
    · simp at h
    · rename_i hend
      obtain rfl := Verdict.complete.inj h
      exact ⟨hend, .inr (.inr rfl)⟩
    · simp at h
  | option table' =>
    have := beginOption_eq_complete h
    simp at this
  | named table' name =>
    simp only [step] at h
    split at h
    · simp at h
    · exact absurd h afterName_ne_complete
  | bodyOpen table' => exact absurd h afterName_ne_complete
  | created =>
    simp only [step] at h
    split at h
    · simp at h
    · simp at h
    · exact absurd h tableWord_ne_complete
  | temporary => exact absurd h tableWord_ne_complete
  | table table' =>
    simp only [step] at h
    split at h
    · simp at h
    · simp [firstName] at h
  | without table' =>
    simp only [step] at h
    split at h <;> simp at h
  | _ => simp [step, firstName] at h

end

-- ════════════════════════════════════════════════════════════════════════
-- What is due
-- ════════════════════════════════════════════════════════════════════════

/-- A statement that is derived within the limits and does not give its table the bare name `IF`. -/
def Admits (limits : Limits) (ts : List Token) (written : List WrittenColumn) (table : Table) :
    Prop :=
  Derives limits.maxExprDepth ts written table ∧ table.columns.length ≤ limits.maxColumns ∧
    ¬NamesTableIf ts

/-- `{';'}` -/
def Semicolons (ts : List Token) : Prop := ∀ t ∈ ts, t.kind = .semicolon

/-- What is due behind a statement. -/
def EndDue (table : Table) (ts : List Token) (table' : Table) : Prop :=
  Semicolons ts ∧ table' = table

/-- What is due where an option is. -/
def OptionDue (table : Table) (ts : List Token) (table' : Table) : Prop :=
  ∃ us ends options, ts = us ++ ends ∧ OptionList us options ∧ Semicolons ends ∧
    table' = options.foldl Table.withOption table

/-- What is due behind an option. -/
def OptionRest (table : Table) (ts : List Token) (table' : Table) : Prop :=
  EndDue table ts table' ∨
  ∃ comma rest, ts = comma :: rest ∧ comma.kind = .comma ∧ OptionDue table rest table'

/-- What is due behind a body that holds the items. -/
def BodyRest (table : Table) (items : Body.Items) (ts : List Token) (table' : Table) : Prop :=
  let table := { table with columns := items.columns, constraints := items.constraints }
  EndDue table ts table' ∨ OptionDue table ts table'

/-- What is due in a body. -/
def BodyDue (limits : Limits) (table : Table) (body : Body.State) :
    List Token → Table → Prop :=
  Sequel (Body.residual limits body) (BodyRest table)

/-- What is due behind the name of the table. -/
def OpenDue (limits : Limits) (table : Table) (ts : List Token) (table' : Table) : Prop :=
  ∃ t us, ts = t :: us ∧ t.kind = .leftParen ∧ BodyDue limits table .start us table'

/-- What is due where the name of the table is. -/
def NameDue (limits : Limits) (table : Table) (ts : List Token) (table' : Table) : Prop :=
  ∃ names us schema name, ts = names ++ us ∧ TableName names schema name ∧
    OpenDue limits { table with schema := schema.or table.schema, name } us table'

/-- What is due behind `IF`. -/
def IfDue (limits : Limits) (table : Table) (ts : List Token) (table' : Table) : Prop :=
  ∃ not exist us, ts = not :: exist :: us ∧ not.kind = .keyword .not ∧
    exist.kind = .keyword .exists ∧ NameDue limits { table with ifNotExists := true } us table'

/-- What is due behind `TABLE`. -/
def TableDue (limits : Limits) (table : Table) (ts : List Token) (table' : Table) : Prop :=
  (∃ word us, ts = word :: us ∧ word.kind = .keyword .if ∧ IfDue limits table us table') ∨
  (∃ t us, ts = t :: us ∧ t.kind ≠ .keyword .if) ∧ NameDue limits table ts table'

/-- What is due where `TABLE` is. -/
def TableWordDue (limits : Limits) (table : Table) (ts : List Token) (table' : Table) : Prop :=
  ∃ word us, ts = word :: us ∧ word.kind = .keyword .table ∧ TableDue limits table us table'

/-- The tokens due in a state, and the table that they end. -/
def residual (limits : Limits) : State → List Token → Table → Prop
  | .start, ts, table' => ∃ written, Admits limits ts written table'
  | .created, ts, table' =>
    ∃ temps us temporary, ts = temps ++ us ∧ Temporary temps temporary ∧
      TableWordDue limits { temporary } us table'
  | .temporary, ts, table' => TableWordDue limits { temporary := true } ts table'
  | .table table, ts, table' => TableDue limits table ts table'
  | .ifWord table, ts, table' => IfDue limits table ts table'
  | .ifNot table, ts, table' =>
    ∃ t us, ts = t :: us ∧ t.kind = .keyword .exists ∧
      NameDue limits { table with ifNotExists := true } us table'
  | .name table, ts, table' => NameDue limits table ts table'
  | .named table name, ts, table' =>
    OpenDue limits { table with name } ts table' ∨
    ∃ dot u us name', ts = dot :: u :: us ∧ dot.kind = .dot ∧ u.name? = some name' ∧
      OpenDue limits { table with schema := some name, name := name' } us table'
  | .qualified table, ts, table' =>
    ∃ t us name, ts = t :: us ∧ t.name? = some name ∧ OpenDue limits { table with name } us table'
  | .bodyOpen table, ts, table' => OpenDue limits table ts table'
  | .body table body, ts, table' => BodyDue limits table body ts table'
  | .without table, ts, table' =>
    ∃ t us, ts = t :: us ∧ t.isWord "ROWID" ∧ OptionRest (table.withOption .withoutRowid) us table'
  | .optionEnd table, ts, table' => OptionRest table ts table'
  | .option table, ts, table' => OptionDue table ts table'
  | .terminated table, ts, table' => EndDue table ts table'

section

variable {s s' : State} {table table' : Table} {t : Token} {ts us : List Token}

theorem OptionRest.optionDue {option : TableOption}
    (h : OptionRest (table.withOption option) ts table') (hus : OptionWords us option) :
    OptionDue table (us ++ ts) table' := by
  obtain ⟨hends, rfl⟩ | ⟨comma, _, rfl, hcomma, vs, ends, options, rfl, hvs, hends, rfl⟩ := h
  · exact ⟨us, ts, [option], rfl, .last hus, hends, rfl⟩
  · exact ⟨us ++ comma :: vs, ends, option :: options, by simp, .more hus hcomma hvs, hends, rfl⟩

theorem endDue_cons (ht : t.kind = .semicolon) (h : EndDue table ts table') :
    EndDue table (t :: ts) table' := by
  obtain ⟨hts, rfl⟩ := h
  exact ⟨by simpa [Semicolons, ht] using hts, rfl⟩

theorem BeginsOption.optionDue (h : BeginsOption table t s) (hr : residual limits s ts table') :
    OptionDue table (t :: ts) table' := by
  cases h with
  | without hwithout =>
    obtain ⟨u, us, rfl, hrowid, hrest⟩ := hr
    exact hrest.optionDue (.withoutRowid hwithout hrowid)
  | strict hstrict =>
    have hrest : OptionRest (table.withOption .strict) ts table' := hr
    exact hrest.optionDue (.strict hstrict)

theorem nameDue_cons {name : String} (hname : t.name? = some name)
    (h : residual limits (.named table name) ts table') : NameDue limits table (t :: ts) table' := by
  obtain h | ⟨dot, u, us, name', rfl, hdot, hu, h⟩ := h
  · exact ⟨[t], ts, none, name, rfl, .plain hname, h⟩
  · exact ⟨[t, dot, u], us, some name, name', rfl, .qualified hname hdot hu, h⟩

theorem columns_foldl_withOption (options : List TableOption) (table : Table) :
    (options.foldl Table.withOption table).columns = table.columns := by
  induction options generalizing table with
  | nil => rfl
  | cons option options ih =>
    rw [List.foldl_cons, ih]
    cases option <;> rfl

/-- Where `TABLE` stands in a statement, and what is behind it. -/
theorem tail_dropWhile {create word : Token} {temps : List Token} {temporary : Bool}
    (hcreate : create.kind = .keyword .create) (htemps : Temporary temps temporary)
    (hword : word.kind = .keyword .table) (ts : List Token) :
    ((create :: temps ++ word :: ts).dropWhile fun t => !t.isKeyword .table).tail = ts := by
  cases htemps with
  | absent => simp [hcreate, hword, Token.isKeyword]
  | present ht => obtain ht | ht := ht <;> simp [hcreate, hword, ht, Token.isKeyword]

/-- What is due from the body on is derived with the words before it. -/
theorem derives_of_openDue {create word : Token} {temps ifs names : List Token}
    {temporary ifNotExists : Bool} {schema : Option String} {name : String}
    (hcreate : create.kind = .keyword .create) (htemps : Temporary temps temporary)
    (hword : word.kind = .keyword .table) (hifs : IfNotExists ifs ifNotExists)
    (hnames : TableName names schema name)
    (h : OpenDue limits { schema, name, temporary, ifNotExists } us table') :
    ∃ written,
      Derives limits.maxExprDepth (create :: temps ++ word :: ifs ++ names ++ us) written table' ∧
      table'.columns.length ≤ limits.maxColumns := by
  obtain ⟨opening, _, rfl, hopening, _, rest, items, rfl, hbody, hrest⟩ := h
  obtain ⟨body, closing, written, constraints, rfl, hbody, hclosing, hlength, rfl⟩ := hbody
  obtain ⟨vs, ends, options, rfl, hvs, hends, rfl⟩ :
      ∃ vs ends options, rest = vs ++ ends ∧ Options vs options ∧ Semicolons ends ∧
        table' = options.foldl Table.withOption
          { schema, name, temporary, ifNotExists
            columns := written.map WrittenColumn.column
            constraints } := by
    obtain ⟨hends, rfl⟩ | ⟨vs, ends, options, rfl, hvs, hends, rfl⟩ := hrest
    · exact ⟨[], rest, [], rfl, .absent, hends, rfl⟩
    · exact ⟨vs, ends, options, rfl, .present hvs, hends, rfl⟩
  refine ⟨written, ?_, ?_⟩
  · have := Derives.intro hcreate htemps hword hifs hnames hopening hbody hclosing hvs hends
    simpa using this
  · rw [columns_foldl_withOption]
    simpa using hlength

/-- What is due behind `CREATE` is a statement with it. -/
theorem admits_of_tableWordDue {create : Token} {temps : List Token} {temporary : Bool}
    (hcreate : create.kind = .keyword .create) (htemps : Temporary temps temporary)
    (h : TableWordDue limits { temporary } us table') :
    ∃ written, Admits limits (create :: temps ++ us) written table' := by
  obtain ⟨word, us, rfl, hword, ⟨first, _, rfl, hfirst, not, exist, _, rfl, hnot, hexist, names, us,
    schema, name, rfl, hnames, h⟩ | ⟨⟨first, vs, rfl, hfirst⟩, names, us, schema, name, hvs, hnames,
    h⟩⟩ := h
  · obtain ⟨written, hderives, hlength⟩ := derives_of_openDue hcreate htemps hword
      (.present hfirst hnot hexist) hnames (by simpa using h)
    refine ⟨written, by simpa using hderives, hlength, ?_⟩
    rintro ⟨u, rest, htail, hu, hrest⟩
    rw [tail_dropWhile hcreate htemps hword] at htail
    obtain ⟨rfl, rfl⟩ := List.cons.inj htail
    exact hrest not rfl hnot
  · obtain ⟨written, hderives, hlength⟩ := derives_of_openDue hcreate htemps hword
      .absent hnames (by simpa using h)
    refine ⟨written, by simpa [hvs] using hderives, hlength, ?_⟩
    rintro ⟨u, rest, htail, hu, hrest⟩
    rw [tail_dropWhile hcreate htemps hword] at htail
    obtain ⟨rfl, rfl⟩ := List.cons.inj htail
    exact hfirst hu

end

theorem isResidual : IsResidual (step limits) (residual limits) where
  taken {s s' t ts table'} h hr := by
    cases transition_of_taken h with
    | create hcreate =>
      obtain ⟨temps, us, temporary, rfl, htemps, hus⟩ := hr
      exact admits_of_tableWordDue hcreate htemps hus
    | temporary ht => exact ⟨[t], ts, true, rfl, .present ht, hr⟩
    | tableWord hword => exact ⟨[], t :: ts, false, rfl, .absent, t, ts, rfl, hword, hr⟩
    | temporaryTable hword => exact ⟨t, ts, rfl, hword, hr⟩
    | ifWord hif => exact .inl ⟨t, ts, rfl, hif, hr⟩
    | notWord hnot =>
      obtain ⟨u, us, rfl, hexists, hus⟩ := hr
      exact ⟨t, u, us, rfl, hnot, hexists, hus⟩
    | existsWord hexists => exact ⟨t, ts, rfl, hexists, hr⟩
    | nameOrSchema hif hname => exact .inr ⟨⟨t, ts, rfl, hif⟩, nameDue_cons hname hr⟩
    | nameBehindExists hname => exact nameDue_cons hname hr
    | dot hdot =>
      obtain ⟨u, us, name, rfl, hname, hus⟩ := hr
      exact .inr ⟨t, u, us, name, rfl, hdot, hname, hus⟩
    | @nameBehindSchema _ name hname => exact ⟨t, ts, name, rfl, hname, hr⟩
    | opening hopening => exact .inl ⟨t, ts, rfl, hopening, hr⟩
    | openingBehindSchema hopening => exact ⟨t, ts, rfl, hopening, hr⟩
    | body hbody =>
      obtain ⟨us, rest, items, rfl, hus, hrest⟩ := hr
      exact ⟨t :: us, rest, items, rfl, Body.isResidual.taken hbody hus, hrest⟩
    | @firstOption _ _ items _ hbody hoption =>
      exact ⟨[], t :: ts, items, rfl, Body.isResidual.complete hbody, .inr (hoption.optionDue hr)⟩
    | @bodyEnd _ _ items hbody hend =>
      exact ⟨[], t :: ts, items, rfl, Body.isResidual.complete hbody, .inl (endDue_cons hend hr)⟩
    | rowid hrowid => exact ⟨t, ts, rfl, hrowid, hr⟩
    | comma hcomma => exact .inr ⟨t, ts, rfl, hcomma, hr⟩
    | nextOption hoption => exact hoption.optionDue hr
    | optionsEnd hend => exact .inl (endDue_cons hend hr)
    | semicolon hend => exact endDue_cons hend hr
  complete {s t table'} h := by
    obtain ⟨-, ⟨table, body, items, rfl, hitems, rfl⟩ | rfl | rfl⟩ := step_eq_complete h
    · exact ⟨[], [], items, rfl, Body.isResidual.complete hitems, .inl ⟨by simp [Semicolons], rfl⟩⟩
    · exact .inl ⟨by simp [Semicolons], rfl⟩
    · exact ⟨by simp [Semicolons], rfl⟩

theorem kind_of_accepts {s : State} {ts : List Token} {e : Token} {table : Table}
    (h : Accepts (step limits) s ts e table) : e.kind = .endOfInput := by
  induction ts generalizing s with
  | nil => exact (step_eq_complete h).1
  | cons t ts ih =>
    obtain ⟨s', -, h⟩ := h
    exact ih h

-- ════════════════════════════════════════════════════════════════════════
-- What is derived is taken
-- ════════════════════════════════════════════════════════════════════════

section

variable {e : Token} {table table' : Table} {ts us ends : List Token} {options : List TableOption}

private theorem accepts_terminated (hends : Semicolons ends) (he : e.kind = .endOfInput) :
    Accepts (step limits) (.terminated table) ends e table := by
  induction ends with
  | nil => simp [step, he]
  | cons t ends ih =>
    have ht : t.kind = .semicolon := hends t (by simp)
    refine Accepts.take (n := .terminated table) (by simp [step, ht]) ?_
    exact ih fun u hu => hends u (by simp [hu])

private theorem leads_finish (hends : Semicolons ends) (he : e.kind = .endOfInput) :
    Leads (step limits) (finish table (ends.headD e)) ends e table := by
  cases ends with
  | nil => simp [Leads, finish, he]
  | cons t ends =>
    have ht : t.kind = .semicolon := hends t (by simp)
    refine ⟨.terminated table, by simp [finish, ht], accepts_terminated (fun u hu => ?_) he⟩
    exact hends u (by simp [hu])

private theorem accepts_optionEnd (hends : Semicolons ends) (he : e.kind = .endOfInput) :
    Accepts (step limits) (.optionEnd table) ends e table := by
  have hcomma : (ends.headD e).kind ≠ .comma := by
    cases ends with
    | nil => simp [he]
    | cons t ends => simp [hends t]
  rw [accepts_iff_leads]
  simp only [step, hcomma, if_false]
  exact leads_finish hends he

/-- An option is taken where one may begin, whatever else may stand there. -/
private theorem leads_option {option : TableOption} {otherwise : Verdict State Table}
    (h : OptionWords us option)
    (hrest : Accepts (step limits) (.optionEnd (table.withOption option)) ts e table') :
    Leads (step limits) (beginOption table ((us ++ ts).headD e) otherwise) (us ++ ts) e table' := by
  cases h with
  | withoutRowid hwithout hrowid =>
    refine ⟨.without table, by simp [beginOption, hwithout], ?_⟩
    exact Accepts.take (by simp [step, hrowid, Table.withOption]) hrest
  | @strict t hstrict =>
    have hwithout : t.kind ≠ .keyword .without := by
      intro hkind
      simp [Token.isBareWord, hkind] at hstrict
    exact ⟨_, by simp [beginOption, hwithout, hstrict, Table.withOption], hrest⟩

private theorem leads_optionList {otherwise : Verdict State Table} (h : OptionList us options)
    (hends : Semicolons ends) (he : e.kind = .endOfInput) :
    Leads (step limits) (beginOption table ((us ++ ends).headD e) otherwise) (us ++ ends) e
      (options.foldl Table.withOption table) := by
  induction h generalizing table otherwise with
  | last hus => exact leads_option hus (accepts_optionEnd hends he)
  | @more us rest comma option options hus hcomma _ ih =>
    rw [List.append_assoc, List.cons_append]
    refine leads_option hus ?_
    refine Accepts.take (n := .option (table.withOption option)) (by simp [step, hcomma]) ?_
    rw [accepts_iff_leads]
    exact ih

private theorem leads_options (h : Options us options) (hends : Semicolons ends)
    (he : e.kind = .endOfInput) :
    Leads (step limits)
      (beginOption table ((us ++ ends).headD e) (finish table ((us ++ ends).headD e)))
      (us ++ ends) e (options.foldl Table.withOption table) := by
  cases h with
  | present h => exact leads_optionList h hends he
  | absent =>
    have hwithout : (ends.headD e).kind ≠ .keyword .without := by
      cases ends with
      | nil => simp [he]
      | cons t ends => simp [hends t]
    have hstrict : (ends.headD e).isBareWord "STRICT" = false := by
      cases ends with
      | nil => simp [Token.isBareWord, he]
      | cons t ends => simp [Token.isBareWord, hends t]
    simp only [List.nil_append, beginOption, Token.isKeyword_iff, hwithout, hstrict, if_false,
      Bool.false_eq_true, List.foldl_nil]
    exact leads_finish hends he

private theorem accepts_firstName {names : List Token} {schema : Option String} {name : String}
    {opening : Token} (h : TableName names schema name) (hopening : opening.kind = .leftParen)
    (hrest : Accepts (step limits)
      (.body { table with schema := schema.or table.schema, name } .start) ts e table') :
    Accepts (step limits) (.name table) (names ++ opening :: ts) e table' := by
  cases h with
  | @plain t name hname =>
    refine Accepts.take (n := .named table name) (by simp [step, firstName, takeName, hname]) ?_
    exact Accepts.take (by simp [step, afterName, takeKind, hopening]) hrest
  | @qualified t dot u schema name hschema hdot hname =>
    refine Accepts.take (n := .named table schema) (by simp [step, firstName, takeName, hschema]) ?_
    refine Accepts.take (n := .qualified { table with schema := some schema })
      (by simp [step, hdot]) ?_
    refine Accepts.take (n := .bodyOpen { table with schema := some schema, name })
      (by simp [step, takeName, hname]) ?_
    exact Accepts.take (by simp [step, afterName, takeKind, hopening]) hrest

/-- Where `IF` does not stand, a name may stand behind `TABLE` as well as behind `EXISTS`. -/
private theorem accepts_table (h : Accepts (step limits) (.name table) ts e table')
    (hif : (ts.headD e).kind ≠ .keyword .if) :
    Accepts (step limits) (.table table) ts e table' := by
  rw [accepts_iff_leads] at h ⊢
  simp only [step, Token.isKeyword_iff, hif, if_false]
  exact h

private theorem accepts_tableWord {create word : Token} {temps : List Token} {temporary : Bool}
    (hcreate : create.kind = .keyword .create) (htemps : Temporary temps temporary)
    (hword : word.kind = .keyword .table)
    (hrest : Accepts (step limits) (.table { temporary }) ts e table') :
    Accepts (step limits) .start (create :: temps ++ word :: ts) e table' := by
  refine Accepts.take (n := .created) (by simp [step, takeKeyword, takeKind, hcreate]) ?_
  cases htemps with
  | absent => exact Accepts.take (by simp [step, tableWord, hword]) hrest
  | present ht =>
    refine Accepts.take (n := .temporary) ?_ ?_
    · obtain ht | ht := ht <;> simp [step, ht]
    · exact Accepts.take (by simp [step, tableWord, hword]) hrest

/-- What is derived is taken up to the end of the text. -/
theorem accepts_of_admits {written : List WrittenColumn} (h : Admits limits ts written table)
    (he : e.kind = .endOfInput) : Accepts (step limits) .start ts e table := by
  obtain ⟨hderives, hlength, hif⟩ := h
  obtain @⟨create, word, opening, closing, temps, ifs, names, body, us, ends, temporary,
    ifNotExists, schema, name, _, constraints, options, hcreate, htemps, hword, hifs, hnames,
    hopening, hbody, hclosing, hus, hends⟩ := hderives
  rw [columns_foldl_withOption] at hlength
  -- from the back: what stands behind each part is taken before the part is
  have hbody : Accepts (step limits)
      (.body { schema, name, temporary, ifNotExists } .start) (body ++ [closing] ++ (us ++ ends)) e
      (options.foldl Table.withOption
        { schema, name, temporary, ifNotExists
          columns := written.map WrittenColumn.column
          constraints }) := by
    refine Accepts.part (Body.step limits)
      (fun items t =>
        let table : Table :=
          { schema, name, temporary, ifNotExists
            columns := items.columns
            constraints := items.constraints }
        beginOption table t (finish table t))
      (fun _ _ => rfl)
      (Body.accepts_of_closed ⟨body, closing, written, constraints, rfl, hbody, hclosing,
        by simpa using hlength, rfl⟩ _) ?_
    exact leads_options hus hends he
  have hname : Accepts (step limits) (.name { temporary, ifNotExists }) _ e _ :=
    accepts_firstName hnames hopening (by simpa using hbody)
  have htable : Accepts (step limits) (.table { temporary })
      (ifs ++ (names ++ opening :: (body ++ closing :: (us ++ ends)))) e
      (options.foldl Table.withOption
        { schema, name, temporary, ifNotExists
          columns := written.map WrittenColumn.column
          constraints }) := by
    cases hifs with
    | absent =>
      refine accepts_table (by simpa using hname) ?_
      -- a name that is the word `IF` is what the grammar allows and the reader does not
      intro hkind
      refine hif ?_
      have htail := tail_dropWhile hcreate htemps hword
        (names ++ opening :: (body ++ closing :: (us ++ ends)))
      cases hnames with
      | plain _ =>
        refine ⟨_, _, by simpa using htail, hkind, ?_⟩
        simp [hopening]
      | qualified _ hdot _ =>
        refine ⟨_, _, by simpa using htail, hkind, ?_⟩
        simp [hdot]
    | present hword hnot hexist =>
      refine Accepts.take (n := .ifWord { temporary }) (by simp [step, hword]) ?_
      refine Accepts.take (n := .ifNot { temporary })
        (by simp [step, takeKeyword, takeKind, hnot]) ?_
      refine Accepts.take (n := .name { temporary, ifNotExists := true })
        (by simp [step, takeKeyword, takeKind, hexist]) ?_
      simpa using hname
  have := accepts_tableWord hcreate htemps hword htable
  simpa using this

end

/-- Up to the end of the text, a statement is taken if and only if it is derived within the limits
    and does not give its table the bare name `IF`. -/
theorem accepts_iff {ts : List Token} {e : Token} {table : Table} (he : e.kind = .endOfInput) :
    Accepts (step limits) .start ts e table ↔ ∃ written, Admits limits ts written table := by
  constructor
  · exact isResidual.of_accepts
  · rintro ⟨written, h⟩
    exact accepts_of_admits h he

end CreateTable.Grammar.Statement
