import CreateTable.Proofs.Grammar.ColumnConstraint

/-!
# The reader of columns

What is read behind the name of a column is what the rule for columns derives. The reader puts
each constraint into the column at once, so what is due relates tokens to columns, and the
constraints as they are written are found again from the tokens.

## Main definitions

- `Column.residual` — what is due in each state of the reader

## Main statements

- `Column.derives_of_residual` — what is due behind a name is derived with it
- `Column.accepts_of_derives` — what is derived is taken
-/

namespace CreateTable

namespace Grammar.Column

variable {limits : Limits}

/-- What is due between constraints. -/
def ConstraintsDue (limits : Limits) (column : Column) (ts : List Token) (c : Column) : Prop :=
  ∃ ws, Constraints limits.maxExprDepth ts ws ∧ c = ws.foldl Column.add column

/-- What is due where a constraint is. -/
def NamedDue (limits : Limits) (column : Column) (ts : List Token) (c : Column) : Prop :=
  ∃ us rest constraint, ts = us ++ rest ∧
    ColumnConstraint.Derives limits.maxExprDepth us constraint ∧
    ConstraintsDue limits (column.constrain constraint) rest c

/-- What is due behind a constraint. A `NOT` that was read behind it goes before what is due. -/
def ConstraintRest (limits : Limits) (column : Column) (r : ColumnConstraint.Result)
    (ts : List Token) (c : Column) : Prop :=
  match r.heldNot with
  | none => ConstraintsDue limits (column.constrain r.constraint) ts c
  | some _ => ∀ word : Token, word.kind = .keyword .not →
      ConstraintsDue limits (column.constrain r.constraint) (word :: ts) c

/-- What is due behind the tokens of a size and a scale, if there is one. -/
def ClosingDue (limits : Limits) (column : Column) (size ts : List Token) (c : Column) : Prop :=
  ∃ closing rest, ts = closing :: rest ∧ closing.kind = .rightParen ∧
    ConstraintsDue limits { column with length := some (Token.verbatim size) } rest c

/-- What is due behind a size. -/
def SizeRest (limits : Limits) (column : Column) (size ts : List Token) (c : Column) : Prop :=
  ClosingDue limits column size ts c ∨
  ∃ comma us rest, ts = comma :: (us ++ rest) ∧ comma.kind = .comma ∧ SignedNumber.Derives us ∧
    ClosingDue limits column (size ++ comma :: us) rest c

/-- What is due behind the words of a type. -/
def TypeRest (limits : Limits) (column : Column) (words ts : List Token) (c : Column) : Prop :=
  words = [] ∧ ConstraintsDue limits column ts c ∨
  words ≠ [] ∧
    (ConstraintsDue limits { column with type := some (Token.verbatim words) } ts c ∨
    ∃ opening us rest, ts = opening :: (us ++ rest) ∧ opening.kind = .leftParen ∧
      SignedNumber.Derives us ∧
      SizeRest limits { column with type := some (Token.verbatim words) } us rest c)

/-- The tokens due in a state, and the column that they end. -/
def residual (limits : Limits) : State → List Token → Column → Prop
  | .type column words, ts, c =>
    ∃ more rest, ts = more ++ rest ∧ (∀ t ∈ more, t.isTypeWord) ∧
      TypeRest limits column (words.reverse ++ more) rest c
  | .size column number, ts, c =>
    Sequel (SignedNumber.residual number) (SizeRest limits column) ts c
  | .scale column size number, ts, c =>
    Sequel (SignedNumber.residual number) (fun scale => ClosingDue limits column (size ++ scale))
      ts c
  | .constraints column, ts, c => ConstraintsDue limits column ts c
  | .constraintName column, ts, c =>
    ∃ t rest name, ts = t :: rest ∧ t.name? = some name ∧
      NamedDue limits { column with constraintName := some name } rest c
  | .named column, ts, c => NamedDue limits column ts c
  | .constraint column constraint, ts, c =>
    Sequel (ColumnConstraint.residual limits constraint) (ConstraintRest limits column) ts c

section

variable {s s' : State} {column c : Column} {t : Token} {ts words : List Token}
  {otherwise : Verdict State Column}

theorem ConstraintsDue.nil : ConstraintsDue limits column [] column := ⟨[], .nil, rfl⟩

/-- A constraint without a name is due between constraints. -/
theorem NamedDue.constraintsDue (h : NamedDue limits column ts c) :
    ConstraintsDue limits column ts c := by
  obtain ⟨us, rest, constraint, rfl, hus, ws, hws, rfl⟩ := h
  exact ⟨⟨none, constraint⟩ :: ws, .cons .absent hus hws, rfl⟩

/-- A constraint with its name is due between constraints. -/
theorem NamedDue.constraintsDue_cons {word : Token} {name : String}
    (h : NamedDue limits { column with constraintName := some name } ts c)
    (hword : word.kind = .keyword .constraint) (hname : t.name? = some name) :
    ConstraintsDue limits column (word :: t :: ts) c := by
  obtain ⟨us, rest, constraint, rfl, hus, ws, hws, rfl⟩ := h
  exact ⟨⟨some name, constraint⟩ :: ws, .cons (.present hword hname) hus hws, rfl⟩

/-- A first word, what is due in its constraint, and what is due behind that. -/
theorem namedDue_cons {word : Keyword} {inner : ColumnConstraint.State}
    (ht : t.kind = .keyword word) (hinner : ColumnConstraint.start? word = some inner)
    (h : residual limits (.constraint column inner) ts c) : NamedDue limits column (t :: ts) c := by
  obtain ⟨us, rest, r, rfl, hus, hrest⟩ := h
  unfold ConstraintRest at hrest
  obtain ⟨hheld, hr⟩ | ⟨vs, word, hheld, hword, hvs, hr⟩ :=
    ColumnConstraint.derives_of_residual hinner ht hus
  · rw [hheld] at hrest
    exact ⟨t :: us, rest, r.constraint, rfl, hr, hrest⟩
  · rw [hheld] at hrest
    refine ⟨vs, word :: rest, r.constraint, ?_, hr, hrest word hword⟩
    rw [← List.cons_append, hvs, List.append_assoc, List.singleton_append]

theorem beginConstraint_eq_taken (h : beginConstraint column t otherwise = .taken s) :
    otherwise = .taken s ∨
    ∃ word inner, t.kind = .keyword word ∧ ColumnConstraint.start? word = some inner ∧
      s = .constraint column inner := by
  unfold beginConstraint at h
  split at h
  · simp at h
  · simp at h
  · rename_i word _ _ hword
    split at h
    · rename_i inner hinner
      obtain rfl := Verdict.taken.inj h
      exact .inr ⟨word, inner, hword, hinner, rfl⟩
    · exact .inl h
  · exact .inl h

theorem beginConstraint_eq_complete (h : beginConstraint column t otherwise = .complete c) :
    otherwise = .complete c := by
  unfold beginConstraint at h
  split at h
  · simp at h
  · simp at h
  · split at h
    · simp at h
    · exact h
  · exact h

theorem residual_betweenConstraints (h : betweenConstraints column t = .taken s)
    (hr : residual limits s ts c) : ConstraintsDue limits column (t :: ts) c := by
  unfold betweenConstraints at h
  split at h
  · rename_i hword
    obtain rfl := Verdict.taken.inj h
    obtain ⟨u, rest, name, rfl, hname, hrest⟩ := hr
    exact hrest.constraintsDue_cons (Token.isKeyword_iff.1 hword) hname
  · obtain h | ⟨word, inner, hword, hinner, rfl⟩ := beginConstraint_eq_taken h
    · simp at h
    · exact (namedDue_cons hword hinner hr).constraintsDue

theorem betweenConstraints_eq_complete (h : betweenConstraints column t = .complete c) :
    c = column := by
  unfold betweenConstraints at h
  split at h
  · simp at h
  · exact (Verdict.complete.inj (beginConstraint_eq_complete h)).symm

theorem residual_afterType (h : afterType column words t = .taken s) (hr : residual limits s ts c) :
    TypeRest limits column words.reverse (t :: ts) c := by
  unfold afterType at h
  split at h
  · rename_i hnil
    exact .inl ⟨by simpa using hnil, residual_betweenConstraints h hr⟩
  · rename_i hne
    refine .inr ⟨by simpa using hne, ?_⟩
    dsimp only at h
    split at h
    · rename_i hopening
      obtain rfl := Verdict.taken.inj h
      obtain ⟨us, rest, size, rfl, ⟨hsize, rfl⟩, hrest⟩ := hr
      exact .inr ⟨t, size, rest, rfl, hopening, hsize, hrest⟩
    · exact .inl (residual_betweenConstraints h hr)

theorem typeRest_of_afterType_complete (h : afterType column words t = .complete c) :
    TypeRest limits column words.reverse [] c := by
  unfold afterType at h
  split at h
  · rename_i hnil
    obtain rfl := betweenConstraints_eq_complete h
    exact .inl ⟨by simpa using hnil, .nil⟩
  · rename_i hne
    refine .inr ⟨by simpa using hne, .inl ?_⟩
    dsimp only at h
    split at h
    · simp at h
    · obtain rfl := betweenConstraints_eq_complete h
      exact .nil

theorem residual_afterSize (h : afterSize column words t = .taken s) (hr : residual limits s ts c) :
    SizeRest limits column words (t :: ts) c := by
  unfold afterSize at h
  split at h
  · rename_i hcomma
    obtain rfl := Verdict.taken.inj h
    obtain ⟨us, rest, scale, rfl, ⟨hscale, rfl⟩, hrest⟩ := hr
    rw [List.append_assoc, List.singleton_append] at hrest
    exact .inr ⟨t, scale, rest, rfl, hcomma, hscale, hrest⟩
  · rename_i hclosing
    obtain rfl := Verdict.taken.inj h
    exact .inl ⟨t, ts, rfl, hclosing, hr⟩
  · simp at h

theorem residual_afterConstraint {r : ColumnConstraint.Result}
    (h : afterConstraint column r t = .taken s) (hr : residual limits s ts c) :
    ConstraintRest limits column r (t :: ts) c := by
  unfold afterConstraint at h
  unfold ConstraintRest
  dsimp only at h
  cases hheld : r.heldNot with
  | none =>
    rw [hheld] at h
    exact residual_betweenConstraints h hr
  | some held =>
    rw [hheld] at h
    -- the held `NOT` is the first token of the next constraint, whose second token is this one
    intro word hword
    obtain ⟨hnull, rfl⟩ := takeKeyword_eq_taken.1 h
    obtain ⟨us, rest, r, rfl, hus, hrest⟩ := hr
    have htake : ColumnConstraint.step limits .null t = .taken (.notNull .start) := by
      simp [ColumnConstraint.step, takeKeyword, takeKind, hnull]
    have hdue := ColumnConstraint.isResidual.taken htake hus
    have hword' : ColumnConstraint.start? .not = some .null := rfl
    have hnamed := namedDue_cons hword hword' ⟨t :: us, rest, r, rfl, hdue, hrest⟩
    exact hnamed.constraintsDue

theorem constraintRest_of_afterConstraint_complete {r : ColumnConstraint.Result}
    (h : afterConstraint column r t = .complete c) : ConstraintRest limits column r [] c := by
  unfold afterConstraint at h
  unfold ConstraintRest
  dsimp only at h
  cases hheld : r.heldNot with
  | none =>
    rw [hheld] at h
    obtain rfl := betweenConstraints_eq_complete h
    exact .nil
  | some held =>
    rw [hheld] at h
    simp at h

theorem residual_type (h : step limits (.type column words) t = .taken s)
    (hr : residual limits s ts c) : residual limits (.type column words) (t :: ts) c := by
  simp only [step] at h
  split at h
  · rename_i hword
    obtain rfl := Verdict.taken.inj h
    obtain ⟨more, rest, rfl, hmore, hrest⟩ := hr
    refine ⟨t :: more, rest, rfl, by simpa using ⟨hword, hmore⟩, ?_⟩
    simpa using hrest
  · refine ⟨[], t :: ts, rfl, by simp, ?_⟩
    rw [List.append_nil]
    exact residual_afterType h hr

theorem residual_of_type_complete (h : step limits (.type column words) t = .complete c) :
    residual limits (.type column words) [] c := by
  simp only [step] at h
  split at h
  · simp at h
  · refine ⟨[], [], rfl, by simp, ?_⟩
    rw [List.append_nil]
    exact typeRest_of_afterType_complete h

end

theorem isResidual : IsResidual (step limits) (residual limits) where
  taken {s s' t ts c} h hr := by
    cases s with
    | type column words => exact residual_type h hr
    | size column number =>
      refine Sequel.of_andThen SignedNumber.isResidual h ?_ fun size h => residual_afterSize h hr
      rintro number' rfl
      exact hr
    | scale column size number =>
      refine Sequel.of_andThen SignedNumber.isResidual h ?_ fun scale h => ?_
      · rintro number' rfl
        exact hr
      · obtain ⟨hclosing, rfl⟩ := takeKind_eq_taken.1 h
        exact ⟨t, ts, rfl, hclosing, hr⟩
    | constraints column => exact residual_betweenConstraints h hr
    | constraintName column =>
      obtain ⟨name, hname, rfl⟩ := takeName_eq_taken.1 h
      exact ⟨t, ts, name, rfl, hname, hr⟩
    | named column =>
      obtain h | ⟨word, inner, hword, hinner, rfl⟩ := beginConstraint_eq_taken h
      · simp at h
      · exact namedDue_cons hword hinner hr
    | constraint column constraint =>
      refine Sequel.of_andThen ColumnConstraint.isResidual h ?_ fun r h =>
        residual_afterConstraint h hr
      rintro constraint' rfl
      exact hr
  complete {s t c} h := by
    cases s with
    | type column words => exact residual_of_type_complete h
    | size column number =>
      obtain ⟨size, -, h⟩ := Verdict.andThen_eq_complete.1 h
      unfold afterSize at h
      split at h <;> simp at h
    | scale column size number =>
      obtain ⟨scale, -, h⟩ := Verdict.andThen_eq_complete.1 h
      simp at h
    | constraints column =>
      obtain rfl := betweenConstraints_eq_complete h
      exact .nil
    | constraintName column => simp [step] at h
    | named column =>
      have := beginConstraint_eq_complete h
      simp at this
    | constraint column constraint =>
      obtain ⟨r, hr, h⟩ := Verdict.andThen_eq_complete.1 h
      exact ⟨[], [], r, rfl, ColumnConstraint.isResidual.complete hr,
        constraintRest_of_afterConstraint_complete h⟩

/-- What is due behind the name of a column is derived behind it. -/
theorem derives_of_residual {name : String} {t : Token} {ts : List Token} {c : Column}
    (hname : t.name? = some name) (h : residual limits (.ofName name) ts c) :
    ∃ w, Derives limits.maxExprDepth (t :: ts) w ∧ c = w.column := by
  obtain ⟨words, rest, rfl, hwords, h⟩ := h
  obtain ⟨hnil, ws, hws, rfl⟩ | ⟨hne, ⟨ws, hws, rfl⟩ |
    ⟨opening, us, rest, rfl, hopening, hus, h⟩⟩ := h
  · obtain rfl : words = [] := by simpa using hnil
    exact ⟨⟨name, none, none, ws⟩, .intro hname .absent hws, rfl⟩
  · exact ⟨⟨name, _, none, ws⟩, .intro hname (.words hne hwords) hws, rfl⟩
  · have hsized : ∀ {size closing rest}, Size size → closing.kind = .rightParen →
        ConstraintsDue limits
          { name, type := some (Token.verbatim words), length := some (Token.verbatim size) }
          rest c →
        ∃ w, Derives limits.maxExprDepth (t :: (words ++ opening :: (size ++ closing :: rest))) w ∧
          c = w.column := by
      rintro size closing rest hsize hclosing ⟨ws, hws, rfl⟩
      refine ⟨⟨name, _, _, ws⟩, ?_, rfl⟩
      have := Derives.intro hname (.sized hne hwords hopening hsize hclosing) hws
      simpa using this
    obtain ⟨closing, rest, rfl, hclosing, h⟩ |
      ⟨comma, vs, rest, rfl, hcomma, hvs, closing, rest, rfl, hclosing, h⟩ := h
    · exact hsized (.size hus) hclosing h
    · have := hsized (.scale hus hcomma hvs) hclosing h
      simpa using this

-- ════════════════════════════════════════════════════════════════════════
-- What is derived is taken
-- ════════════════════════════════════════════════════════════════════════

/-- A token behind a column: a comma or the closing parenthesis of the body. -/
def EndsColumn (t : Token) : Prop := t.kind = .comma ∨ t.kind = .rightParen

/-- A token that stands where a constraint begins or the column ends. -/
def MeetsConstraint (t : Token) : Prop :=
  EndsColumn t ∨ t.kind = .keyword .constraint ∨
  ∃ word s, t.kind = .keyword word ∧ ColumnConstraint.start? word = some s

variable {e t : Token} {ts rest : List Token} {column c : Column}

theorem EndsColumn.not_continuesClause (h : EndsColumn t) : t.continuesClause = false := by
  obtain h | h := h <;> simp [Token.continuesClause, h]

theorem MeetsConstraint.not_continuesClause (h : MeetsConstraint t) :
    t.continuesClause = false := by
  obtain h | h | ⟨word, s, h, hs⟩ := h
  · exact h.not_continuesClause
  · simp [Token.continuesClause, h]
  · cases word <;> simp_all [Token.continuesClause, ColumnConstraint.start?]

theorem MeetsConstraint.not_isTypeWord (h : MeetsConstraint t) : t.isTypeWord = false := by
  obtain (h | h) | h | ⟨word, s, h, hs⟩ := h
  · simp [Token.isTypeWord, Token.name?, h]
  · simp [Token.isTypeWord, Token.name?, h]
  · simp [Token.isTypeWord, Token.name?, h, Keyword.isReserved]
  · cases word <;> simp_all [Token.isTypeWord, Token.name?, ColumnConstraint.start?,
      Keyword.isReserved]

theorem MeetsConstraint.kind_ne_leftParen (h : MeetsConstraint t) : t.kind ≠ .leftParen := by
  intro hkind
  obtain (h | h) | h | ⟨word, s, h, hs⟩ := h <;> simp [hkind] at h

theorem meetsConstraint_of_constraints {ws : List WrittenConstraint}
    (h : Constraints limits.maxExprDepth ts ws) (he : EndsColumn e) :
    MeetsConstraint (ts.headD e) := by
  cases h with
  | nil => exact .inl he
  | cons hnames hts hrest =>
    cases hnames with
    | absent =>
      obtain ⟨t, us, word, s, rfl, hword, hs, -⟩ :=
        ColumnConstraint.stops_of_derives hts he.not_continuesClause
      exact .inr (.inr ⟨word, s, hword, hs⟩)
    | present hword hname => exact .inr (.inl hword)

/-- A word that begins a constraint begins one. -/
private theorem beginConstraint_of_start? {word : Keyword} {s : ColumnConstraint.State}
    {otherwise : Verdict State Column} (ht : t.kind = .keyword word)
    (hs : ColumnConstraint.start? word = some s) :
    beginConstraint column t otherwise = .taken (.constraint column s) := by
  unfold beginConstraint
  cases word <;> simp_all [ColumnConstraint.start?]

private theorem betweenConstraints_of_start? {word : Keyword} {s : ColumnConstraint.State}
    (ht : t.kind = .keyword word) (hs : ColumnConstraint.start? word = some s) :
    betweenConstraints column t = .taken (.constraint column s) := by
  have hne : t.kind ≠ .keyword .constraint := by
    intro hkind
    obtain rfl : word = .constraint := by simpa [ht] using hkind
    simp [ColumnConstraint.start?] at hs
  simp only [betweenConstraints, Token.isKeyword_iff, hne, if_false]
  exact beginConstraint_of_start? ht hs

/-- Behind a `NOT` that was handed back, `NULL` is taken as if the `NOT` had begun the
    constraint. -/
private theorem leads_null {v : List Token}
    (h : Accepts (step limits) (.constraint column .null) v e c) :
    (v.headD e).kind = .keyword .null ∧
      Leads (step limits)
        (takeKeyword (v.headD e) .null .nullAfterNot (.constraint column (.notNull .start))) v e
        c := by
  rw [accepts_iff_leads] at h
  by_cases hnull : (v.headD e).kind = .keyword .null
  · refine ⟨hnull, ?_⟩
    simpa only [step, ColumnConstraint.step, takeKeyword, takeKind, hnull, if_true,
      Verdict.andThen_taken] using h
  · have hstep : step limits (.constraint column .null) (v.headD e) =
        (v.headD e).refuse .nullAfterNot := by
      simp only [step, ColumnConstraint.step, takeKeyword, takeKind, hnull, if_false]
      rfl
    rw [hstep] at h
    cases v with
    | nil => exact absurd h (Token.refuse_ne_complete _ _ _)
    | cons u v =>
      obtain ⟨s, hs, -⟩ := h
      exact absurd hs (Token.refuse_ne_taken _ _ _)

/-- A constraint is taken, and behind it what follows, be it read for the constraint or not. -/
private theorem accepts_constraint {s : ColumnConstraint.State} {constraint : ColumnConstraint}
    (h : Stops (ColumnConstraint.step limits) s ts (rest.headD e)
      fun heldNot => { constraint, heldNot })
    (hrest : Accepts (step limits) (.constraints (column.constrain constraint)) rest e c)
    (he : EndsColumn e) : Accepts (step limits) (.constraint column s) (ts ++ rest) e c := by
  have hstep : ∀ p t, step limits (.constraint column p) t =
      (ColumnConstraint.step limits p t).andThen (.constraint column)
        (afterConstraint column · t) := fun _ _ => rfl
  obtain h | ⟨hnot, h⟩ := h
  · exact Accepts.part _ _ hstep h (accepts_iff_leads.1 hrest)
  · cases rest with
    | nil => obtain he | he := he <;> simp [he] at hnot
    | cons word rest =>
      -- the rules have the `NOT` in the next constraint, and the reader has taken it for this one
      have hnot : word.kind = .keyword .not := hnot
      obtain ⟨s', hs', hrest⟩ := hrest
      simp only [step, betweenConstraints_of_start? hnot rfl] at hs'
      obtain rfl := Verdict.taken.inj hs'
      obtain ⟨hnull, hlead⟩ := leads_null hrest
      rw [show ts ++ word :: rest = ts ++ [word] ++ rest by simp]
      refine Accepts.part _ _ hstep (h _ ?_) hlead
      rw [hnull]
      simp

private theorem accepts_constraints {ws : List WrittenConstraint}
    (h : Constraints limits.maxExprDepth ts ws) (he : EndsColumn e) (column : Column) :
    Accepts (step limits) (.constraints column) ts e (ws.foldl Column.add column) := by
  induction h generalizing column with
  | nil =>
    obtain he | he := he <;> simp [step, betweenConstraints, beginConstraint, he]
  | @cons names ts rest name constraint ws hnames hts hrest ih =>
    have hmeets := meetsConstraint_of_constraints hrest he
    obtain ⟨t, us, word, s, rfl, hword, hs, hus⟩ :=
      ColumnConstraint.stops_of_derives hts hmeets.not_continuesClause
    cases hnames with
    | absent =>
      refine Accepts.take (betweenConstraints_of_start? hword hs) ?_
      exact accepts_constraint hus (ih _) he
    | @present first u name hfirst hu =>
      refine Accepts.take (n := .constraintName column) (by simp [step, betweenConstraints, hfirst])
        ?_
      refine Accepts.take (n := .named { column with constraintName := some name })
        (by simp [step, takeName, hu]) ?_
      refine Accepts.take (beginConstraint_of_start? hword hs) ?_
      exact accepts_constraint hus (ih _) he

/-- Words are taken for a type up to a token that is none. -/
private theorem accepts_words {more words : List Token} (hmore : ∀ t ∈ more, t.isTypeWord)
    (hrest : (rest.headD e).isTypeWord = false)
    (h : Leads (step limits) (afterType column (more.reverse ++ words) (rest.headD e)) rest e c) :
    Accepts (step limits) (.type column words) (more ++ rest) e c := by
  induction more generalizing words with
  | nil =>
    rw [List.nil_append, accepts_iff_leads]
    simp only [step, hrest]
    exact h
  | cons t more ih =>
    have ht : t.isTypeWord := hmore t (by simp)
    refine Accepts.take (n := .type column (t :: words)) (by simp [step, ht]) ?_
    refine ih (fun u hu => hmore u (by simp [hu])) ?_
    simpa using h

private theorem accepts_size {size : List Token} {closing : Token} (h : Size size)
    (hclosing : closing.kind = .rightParen)
    (hrest : Accepts (step limits)
      (.constraints { column with length := some (Token.verbatim size) }) rest e c) :
    Accepts (step limits) (.size column .start) (size ++ closing :: rest) e c := by
  have hsize : ∀ p t, step limits (.size column p) t =
      (SignedNumber.step .typeSize p t).andThen (.size column) (afterSize column · t) :=
    fun _ _ => rfl
  cases h with
  | size hnumber =>
    refine Accepts.part _ _ hsize (SignedNumber.accepts_of_derives hnumber _) ?_
    exact ⟨_, by simp [afterSize, hclosing], hrest⟩
  | @scale ts us comma hts hcomma hus =>
    rw [List.append_assoc, List.cons_append]
    refine Accepts.part _ _ hsize (SignedNumber.accepts_of_derives hts _) ?_
    refine ⟨.scale column (ts ++ [comma]) .start, by simp [afterSize, hcomma], ?_⟩
    refine Accepts.part (SignedNumber.step .typeScale)
      (fun scale t => takeKind t .rightParen .closeAfterTypeSize
        (.constraints { column with length := some (Token.verbatim (ts ++ [comma] ++ scale)) }))
      (fun _ _ => rfl) (SignedNumber.accepts_of_derives hus _) ?_
    have hrest : Accepts (step limits)
        (.constraints { column with length := some (Token.verbatim (ts ++ [comma] ++ us)) })
        rest e c := by simpa using hrest
    exact ⟨_, by simp [takeKind, hclosing], hrest⟩

/-- What is derived behind the name of a column is taken. -/
theorem accepts_of_derives {w : WrittenColumn} (h : Derives limits.maxExprDepth ts w)
    (he : EndsColumn e) :
    ∃ t us, ts = t :: us ∧ t.name? = some w.name ∧
      Accepts (step limits) (.ofName w.name) us e w.column := by
  obtain @⟨t, types, us, name, type, length, ws, hname, htypes, hus⟩ := h
  have hmeets := meetsConstraint_of_constraints hus he
  refine ⟨t, types ++ us, rfl, hname, ?_⟩
  have hconstraints := fun column => accepts_iff_leads.1 (accepts_constraints hus he column)
  cases htypes with
  | absent =>
    exact accepts_words (by simp) hmeets.not_isTypeWord (hconstraints _)
  | words hne hwords =>
    refine accepts_words hwords hmeets.not_isTypeWord ?_
    have hstep : ∀ words, words ≠ [] → afterType { name } words (us.headD e) =
        betweenConstraints { name, type := some (Token.verbatim words.reverse) } (us.headD e) := by
      intro words hwords
      have := hmeets.kind_ne_leftParen
      simp only [afterType, List.isEmpty_iff, hwords, if_false]
    rw [List.append_nil, hstep _ (by simpa using hne), List.reverse_reverse]
    exact hconstraints _
  | @sized words size opening closing hne hwords hopening hsize hclosing =>
    rw [List.append_assoc, List.append_assoc]
    refine accepts_words hwords ?_ ?_
    · simp [Token.isTypeWord, Token.name?, hopening]
    · refine ⟨.size { name, type := some (Token.verbatim words) } .start, ?_, ?_⟩
      · simp [afterType, hne, hopening]
      · exact accepts_size hsize hclosing (accepts_constraints hus he _)

end Grammar.Column

end CreateTable
