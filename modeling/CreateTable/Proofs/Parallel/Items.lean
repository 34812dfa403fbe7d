import CreateTable.Proofs.Parallel.Clauses

/-!
# Columns and table constraints side by side

The readers of what stands in a body go with each other on tokens that do.

## Main definitions

- `ColumnConstraint.State.Parallel`, `Column.State.Parallel`, `TableConstraint.State.Parallel` —
  states that go with each other

## Main statements

- `Column.step_parallel` — columns are read side by side
- `TableConstraint.step_parallel` — table constraints are read side by side
-/

namespace CreateTable.Grammar

open Verdict

variable {f : String → String} {past : Past} {t u : Token} {limits : Limits}

-- ════════════════════════════════════════════════════════════════════════
-- Constraints on columns
-- ════════════════════════════════════════════════════════════════════════

namespace ColumnConstraint

/-- Constraints on columns that go with each other. -/
inductive State.Parallel (f : String → String) (past : Past) : State → State → Prop
  | key : Parallel f past .key .key
  | order : Parallel f past .order .order
  | keyConflict (order : SortOrder) (clause : ConflictClause.State) :
    Parallel f past (.keyConflict order clause) (.keyConflict order clause)
  | null : Parallel f past .null .null
  | notNull (clause : ConflictClause.State) : Parallel f past (.notNull clause) (.notNull clause)
  | nullable (clause : ConflictClause.State) : Parallel f past (.nullable clause) (.nullable clause)
  | unique (clause : ConflictClause.State) : Parallel f past (.unique clause) (.unique clause)
  | check {inner inner' : Expression.State} : inner.Parallel f past inner' →
    Parallel f past (.check inner) (.check inner')
  | default : Parallel f past .default .default
  | number {number number' : SignedNumber.State} : number.Parallel [] [] past number' →
    Parallel f past (.number number) (.number number')
  | expression {inner inner' : Expression.State} : inner.Parallel f past inner' →
    Parallel f past (.expression inner) (.expression inner')
  | collation : Parallel f past .collation .collation
  | references {target target' : References.State} : target.Parallel f past target' →
    Parallel f past (.references target) (.references target')
  | closed {k k' : CreateTable.ColumnConstraint} : k.Corresponds f past.Excerpt k' →
    Parallel f past (.closed k) (.closed k')

/-- What is read of constraints on columns that go with each other. -/
structure Result.Parallel (f : String → String) (past : Past) (r r' : Result) : Prop where
  constraint : r.constraint.Corresponds f past.Excerpt r'.constraint
  heldNot : Option.Rel (past.Pairs f) r.heldNot r'.heldNot

/-- A constraint behind which nothing has been read. -/
theorem Result.Parallel.alone {k k' : CreateTable.ColumnConstraint}
    (h : k.Corresponds f past.Excerpt k') :
    Result.Parallel f past { constraint := k } { constraint := k' } :=
  ⟨h, .none⟩

theorem parallel_of_start? {word : Keyword} {s : State} (h : start? word = some s) :
    State.Parallel f past s s := by
  unfold start? at h
  split at h
  case h_5 | h_8 =>
    obtain rfl := Option.some.inj h
    first
      | exact .check .opening
      | exact .references .table
  case h_9 => cases h
  all_goals
    obtain rfl := Option.some.inj h
    constructor

theorem isLiteral_of_counterpart (ht : t.Counterpart f u) : isLiteral u = isLiteral t := by
  have hnumber : (u.kind == .number) = (t.kind == .number) := by
    rw [Bool.eq_iff_iff, beq_iff_eq, beq_iff_eq]
    exact ht.similar.eq_iff _ rfl
  have hblob : (u.kind == .blob) = (t.kind == .blob) := by
    rw [Bool.eq_iff_iff, beq_iff_eq, beq_iff_eq]
    exact ht.similar.eq_iff _ rfl
  rw [isLiteral, isLiteral, hnumber, hblob, ht.isKeyword, ht.name?, Option.isSome_map]

theorem keyConflict_parallel (ht : t.Counterpart f u) (order : SortOrder)
    (clause : ConflictClause.State) :
    (keyConflict order clause t).Parallel ((t, u) :: past) (State.Parallel f ((t, u) :: past))
      (Result.Parallel f ((t, u) :: past)) (keyConflict order clause u) := by
  refine (ConflictClause.step_parallel ht clause).andThen ?_ ?_
  · rintro clause _ rfl
    exact .keyConflict order clause
  · rintro conflict _ rfl
    rw [ht.isKeyword]
    split
    · exact .taken (.closed (.primaryKey order conflict true))
    · exact .complete (.alone (.primaryKey order conflict false))

/-- A number that is a default. -/
private theorem number_parallel (ht : t.Counterpart f u) {number number' : SignedNumber.State}
    (h : number.Parallel [] [] past number') :
    ((SignedNumber.step .defaultValue number t).andThen State.number fun tokens =>
        Verdict.complete { constraint := .default (Token.verbatim tokens) : Result }).Parallel
      ((t, u) :: past) (State.Parallel f ((t, u) :: past)) (Result.Parallel f ((t, u) :: past))
      ((SignedNumber.step .defaultValue number' u).andThen State.number fun tokens =>
        Verdict.complete { constraint := .default (Token.verbatim tokens) : Result }) := by
  refine (SignedNumber.step_parallel ht _ h).andThen (fun _ _ hs => .number hs) fun _ _ hread => ?_
  exact .complete (.alone (.default (hread.excerpt.later _)))

theorem default_parallel (ht : t.Counterpart f u) :
    (default t).Parallel ((t, u) :: past) (State.Parallel f ((t, u) :: past))
      (Result.Parallel f ((t, u) :: past)) (default u) := by
  have hnow := Past.Pairs.now past ht
  have hliteral : (if isLiteral t then .taken (.closed (.default t.source))
        else t.refuse .defaultValue : Verdict State Result).Parallel ((t, u) :: past)
      (State.Parallel f ((t, u) :: past)) (Result.Parallel f ((t, u) :: past))
      (if isLiteral u then .taken (.closed (.default u.source))
        else u.refuse .defaultValue : Verdict State Result) := by
    rw [isLiteral_of_counterpart ht]
    split
    · exact .taken (.closed (.default (.single past t u)))
    · exact parallel_refuse _ hnow
  unfold default
  have hkind := ht.similar
  generalize t.kind = k, u.kind = k' at hkind ⊢
  cases hkind with
  | same =>
    split
    · exact .taken (.expression (.inside .nil rfl))
    · exact number_parallel ht (.start .nil)
    · exact hliteral
  | _ => exact hliteral

theorem step_parallel (ht : t.Counterpart f u) {s s' : State} (hs : State.Parallel f past s s') :
    (step limits s t).Parallel ((t, u) :: past) (State.Parallel f ((t, u) :: past))
      (Result.Parallel f ((t, u) :: past)) (step limits s' u) := by
  have hnow := Past.Pairs.now past ht
  have hclause : ∀ {within : ConflictClause.State → State}
      {k : ConflictResolution → CreateTable.ColumnConstraint} (clause : ConflictClause.State),
      (∀ clause, State.Parallel f ((t, u) :: past) (within clause) (within clause)) →
      (∀ r, (k r).Corresponds f (Past.Excerpt ((t, u) :: past)) (k r)) →
      ((ConflictClause.step clause t).andThen within fun r =>
          Verdict.complete { constraint := k r : Result }).Parallel ((t, u) :: past)
        (State.Parallel f ((t, u) :: past)) (Result.Parallel f ((t, u) :: past))
        ((ConflictClause.step clause u).andThen within fun r =>
          Verdict.complete { constraint := k r : Result }) := by
    intro within k clause hwithin hk
    refine (ConflictClause.step_parallel ht clause).andThen ?_ ?_
    · rintro clause _ rfl
      exact hwithin clause
    · rintro r _ rfl
      exact .complete (.alone (hk r))
  cases hs with
  | key => exact parallel_takeKeyword _ _ hnow .order
  | order =>
    unfold step
    dsimp only
    rw [ht.sortOrder?]
    split
    · exact .taken (.keyConflict _ _)
    · exact keyConflict_parallel ht _ _
  | keyConflict order clause => exact keyConflict_parallel ht order clause
  | null => exact parallel_takeKeyword _ _ hnow (.notNull _)
  | notNull clause => exact hclause clause .notNull .notNull
  | nullable clause => exact hclause clause .nullable fun _ => .null
  | unique clause => exact hclause clause .unique .unique
  | check hinner =>
    refine (Expression.step_parallel ht hinner).andThen (fun _ _ hs => .check hs) fun _ _ htext => ?_
    exact .complete (.alone (.check htext))
  | default => exact default_parallel ht
  | number hnumber => exact number_parallel ht hnumber
  | expression hinner =>
    refine (Expression.step_parallel ht hinner).andThen (fun _ _ hs => .expression hs)
      fun _ _ htext => ?_
    exact .complete (.alone (.default htext))
  | collation => exact parallel_takeName _ hnow fun name => .closed (.collate name)
  | references htarget =>
    refine (References.step_parallel ht htarget).andThen (fun _ _ hs => .references hs) ?_
    rintro r r' ⟨hkey, hheld⟩
    refine .complete ⟨?_, hheld⟩
    dsimp only
    rw [hkey]
    exact .references r.key
  | closed hk => exact .complete (.alone (hk.mono fun _ _ h => h.later _))

end ColumnConstraint

-- ════════════════════════════════════════════════════════════════════════
-- Columns
-- ════════════════════════════════════════════════════════════════════════

namespace Column

/-- Columns that go with each other. -/
inductive State.Parallel (f : String → String) (past : Past) : State → State → Prop
  | type {c d : CreateTable.Column} {words words' : List Token} :
    c.Corresponds f past.Excerpt d → past.Latest words words' →
    Parallel f past (.type c words) (.type d words')
  | size {c d : CreateTable.Column} {number number' : SignedNumber.State} :
    c.Corresponds f past.Excerpt d → number.Parallel [] [] past number' →
    Parallel f past (.size c number) (.size d number')
  | scale {c d : CreateTable.Column} {size size' : List Token}
      {number number' : SignedNumber.State} :
    c.Corresponds f past.Excerpt d → number.Parallel size.reverse size'.reverse past number' →
    Parallel f past (.scale c size number) (.scale d size' number')
  | constraints {c d : CreateTable.Column} : c.Corresponds f past.Excerpt d →
    Parallel f past (.constraints c) (.constraints d)
  | constraintName {c d : CreateTable.Column} : c.Corresponds f past.Excerpt d →
    Parallel f past (.constraintName c) (.constraintName d)
  | named {c d : CreateTable.Column} : c.Corresponds f past.Excerpt d →
    Parallel f past (.named c) (.named d)
  | constraint {c d : CreateTable.Column} {k k' : ColumnConstraint.State} :
    c.Corresponds f past.Excerpt d → k.Parallel f past k' →
    Parallel f past (.constraint c k) (.constraint d k')

variable {c d : CreateTable.Column}

theorem beginConstraint_parallel (hnow : past.Pairs f t u) (h : c.Corresponds f past.Excerpt d)
    {otherwise otherwise' : Verdict State CreateTable.Column}
    (hother : otherwise.Parallel past (State.Parallel f past)
      (CreateTable.Column.Corresponds f past.Excerpt) otherwise') :
    (beginConstraint c t otherwise).Parallel past (State.Parallel f past)
      (CreateTable.Column.Corresponds f past.Excerpt) (beginConstraint d u otherwise') := by
  unfold beginConstraint
  have hkind := hnow.counterpart.similar
  generalize t.kind = k, u.kind = k' at hkind ⊢
  cases hkind with
  | same =>
    split
    · exact parallel_error _ hnow
    · exact parallel_error _ hnow
    · split
      · exact .taken (.constraint h (ColumnConstraint.parallel_of_start? ‹_›))
      · exact hother
    · exact hother
  | _ => exact hother

theorem betweenConstraints_parallel (hnow : past.Pairs f t u)
    (h : c.Corresponds f past.Excerpt d) :
    (betweenConstraints c t).Parallel past (State.Parallel f past)
      (CreateTable.Column.Corresponds f past.Excerpt) (betweenConstraints d u) := by
  unfold betweenConstraints
  rw [hnow.counterpart.isKeyword]
  split
  · exact .taken (.constraintName h)
  · exact beginConstraint_parallel hnow h (.complete h)

theorem afterType_parallel (hnow : past.Pairs f t u) (h : c.Corresponds f past.Excerpt d)
    {words words' : List Token} (hempty : words'.isEmpty = words.isEmpty)
    (hwords : words ≠ [] →
      past.Excerpt (Token.verbatim words.reverse) (Token.verbatim words'.reverse)) :
    (afterType c words t).Parallel past (State.Parallel f past)
      (CreateTable.Column.Corresponds f past.Excerpt) (afterType d words' u) := by
  unfold afterType
  rw [hempty]
  split
  · exact betweenConstraints_parallel hnow h
  · have hne : words ≠ [] := by simpa using ‹¬words.isEmpty = true›
    have htype : CreateTable.Column.Corresponds f past.Excerpt
        { c with type := some (Token.verbatim words.reverse) }
        { d with type := some (Token.verbatim words'.reverse) } :=
      { h with type := .some (hwords hne) }
    have hbetween := betweenConstraints_parallel hnow htype
    dsimp only
    have hkind := hnow.counterpart.similar
    generalize t.kind = k, u.kind = k' at hkind ⊢
    cases hkind with
    | same =>
      split
      · exact .taken (.size htype (.start .nil))
      · exact hbetween
    | _ => exact hbetween

theorem afterSize_parallel (ht : t.Counterpart f u)
    (h : c.Corresponds f (Past.Excerpt ((t, u) :: past)) d) {size size' : List Token}
    (hread : SignedNumber.Read [] [] past size size') :
    (afterSize c size t).Parallel ((t, u) :: past) (State.Parallel f ((t, u) :: past))
      (CreateTable.Column.Corresponds f (Past.Excerpt ((t, u) :: past))) (afterSize d size' u) := by
  have hnow := Past.Pairs.now past ht
  have hlength := hread.excerpt.later (t, u)
  unfold afterSize
  have hkind := ht.similar
  generalize t.kind = k, u.kind = k' at hkind ⊢
  cases hkind with
  | same =>
    split
    · refine .taken (.scale h (.start ?_))
      have hlatest := hread.2.cons (t := t) (u := u)
      simpa using hlatest
    · exact .taken (.constraints { h with length := .some hlength })
    · exact parallel_refuse _ hnow
  | _ => exact parallel_refuse _ hnow

theorem afterConstraint_parallel (hnow : past.Pairs f t u) (h : c.Corresponds f past.Excerpt d)
    {r r' : ColumnConstraint.Result} (hr : r.Parallel f past r') :
    (afterConstraint c r t).Parallel past (State.Parallel f past)
      (CreateTable.Column.Corresponds f past.Excerpt) (afterConstraint d r' u) := by
  obtain ⟨k, held⟩ := r
  obtain ⟨k', held'⟩ := r'
  obtain ⟨hk, hheld⟩ := hr
  have hc := h.constrain hk
  unfold afterConstraint
  cases hheld with
  | none => exact betweenConstraints_parallel hnow hc
  | some => exact parallel_takeKeyword _ _ hnow (.constraint hc (.notNull _))

theorem step_parallel (ht : t.Counterpart f u) {s s' : State} (hs : State.Parallel f past s s') :
    (step limits s t).Parallel ((t, u) :: past) (State.Parallel f ((t, u) :: past))
      (CreateTable.Column.Corresponds f (Past.Excerpt ((t, u) :: past))) (step limits s' u) := by
  have hnow := Past.Pairs.now past ht
  have hlater : ∀ {c d : CreateTable.Column}, c.Corresponds f past.Excerpt d →
      c.Corresponds f (Past.Excerpt ((t, u) :: past)) d :=
    fun h => h.mono fun _ _ hexcerpt => hexcerpt.later _
  cases hs with
  | type h hwords =>
    unfold step
    dsimp only
    rw [ht.isTypeWord]
    split
    · exact .taken (.type (hlater h) hwords.cons)
    · exact afterType_parallel hnow (hlater h) hwords.isEmpty
        fun hne => (hwords.excerpt hne).later _
  | size h hnumber =>
    exact (SignedNumber.step_parallel ht _ hnumber).andThen (fun _ _ hs => .size (hlater h) hs)
      fun _ _ hread => afterSize_parallel ht (hlater h) hread
  | scale h hnumber =>
    refine (SignedNumber.step_parallel ht _ hnumber).andThen (fun _ _ hs => .scale (hlater h) hs)
      fun _ _ hread => ?_
    have hlength := hread.excerpt.later (t, u)
    rw [List.reverse_reverse, List.reverse_reverse] at hlength
    exact parallel_takeKind _ rfl hnow (.constraints { hlater h with length := .some hlength })
  | constraints h => exact betweenConstraints_parallel hnow (hlater h)
  | constraintName h =>
    exact parallel_takeName _ hnow fun _ => .named { hlater h with constraintName := rfl }
  | named h => exact beginConstraint_parallel hnow (hlater h) (parallel_refuse _ hnow)
  | constraint h hk =>
    exact (ColumnConstraint.step_parallel ht hk).andThen (fun _ _ hs => .constraint (hlater h) hs)
      fun _ _ hr => afterConstraint_parallel hnow (hlater h) hr

end Column

-- ════════════════════════════════════════════════════════════════════════
-- Table constraints
-- ════════════════════════════════════════════════════════════════════════

namespace TableConstraint

/-- Table constraints that go with each other. -/
inductive State.Parallel (f : String → String) (past : Past) : State → State → Prop
  | name : Parallel f past .name .name
  | named (name : String) : Parallel f past (.named name) (.named (f name))
  | primary (name : OptionalName) : Parallel f past (.primary name) (.primary (name.map f))
  | primaryColumns (name : OptionalName) (columns : IndexedColumns.State) :
    Parallel f past (.primaryColumns name columns)
      (.primaryColumns (name.map f) (columns.mapText f))
  | primaryConflict (name : OptionalName) (columns : List IndexedColumn)
      (clause : ConflictClause.State) :
    Parallel f past (.primaryConflict name columns clause)
      (.primaryConflict (name.map f) (columns.map (.mapText f)) clause)
  | uniqueColumns (name : OptionalName) (columns : IndexedColumns.State) :
    Parallel f past (.uniqueColumns name columns) (.uniqueColumns (name.map f) (columns.mapText f))
  | uniqueConflict (name : OptionalName) (columns : List IndexedColumn)
      (clause : ConflictClause.State) :
    Parallel f past (.uniqueConflict name columns clause)
      (.uniqueConflict (name.map f) (columns.map (.mapText f)) clause)
  | check (name : OptionalName) {inner inner' : Expression.State} : inner.Parallel f past inner' →
    Parallel f past (.check name inner) (.check (name.map f) inner')
  | checkConflict (name : OptionalName) {text text' : String} (clause : ConflictClause.State) :
    past.Excerpt text text' →
    Parallel f past (.checkConflict name text clause) (.checkConflict (name.map f) text' clause)
  | foreign (name : OptionalName) : Parallel f past (.foreign name) (.foreign (name.map f))
  | foreignOpen (name : OptionalName) :
    Parallel f past (.foreignOpen name) (.foreignOpen (name.map f))
  | foreignColumns (name : OptionalName) (columns : NameList.State) :
    Parallel f past (.foreignColumns name columns)
      (.foreignColumns (name.map f) (columns.mapText f))
  | references (name : OptionalName) (columns : List String) {target target' : References.State} :
    target.Parallel f past target' →
    Parallel f past (.references name columns target)
      (.references (name.map f) (columns.map f) target')

/-- What is read of table constraints that go with each other. -/
structure Result.Parallel (f : String → String) (past : Past) (r r' : Result) : Prop where
  constraint : r.constraint.Corresponds f past.Excerpt r'.constraint
  heldNot : Option.Rel (past.Pairs f) r.heldNot r'.heldNot

theorem rule?_parallel (name : OptionalName) (word : Keyword) :
    Option.Rel (State.Parallel f past) (rule? name word) (rule? (name.map f) word) := by
  unfold rule?
  split
  · exact .some (.primary name)
  · exact .some (.uniqueColumns name .opening)
  · exact .some (.check name .opening)
  · exact .some (.foreign name)
  · exact .none

theorem start?_parallel (ht : t.Counterpart f u) :
    Option.Rel (State.Parallel f past) (start? t) (start? u) := by
  unfold start?
  have hkind := ht.similar
  generalize t.kind = k, u.kind = k' at hkind ⊢
  cases hkind with
  | same =>
    split
    · exact .some .name
    · exact rule?_parallel none _
    · exact .none
  | _ => exact .none

theorem afterName_parallel (hnow : past.Pairs f t u) (name : String) :
    (afterName name t).Parallel past (State.Parallel f past) (Result.Parallel f past)
      (afterName (f name) u) := by
  unfold afterName
  have hkind := hnow.counterpart.similar
  generalize t.kind = k, u.kind = k' at hkind ⊢
  cases hkind with
  | same =>
    split
    · rename_i word
      have hrule : Option.Rel (State.Parallel f past) (rule? (some name) word)
          (rule? (some (f name)) word) :=
        rule?_parallel (some name) word
      generalize rule? (some name) word = s, rule? (some (f name)) word = s' at hrule ⊢
      cases hrule with
      | some hs => exact .taken hs
      | none => exact parallel_refuse _ hnow
    · exact parallel_refuse _ hnow
  | _ => exact parallel_refuse _ hnow

theorem primaryConflict_parallel (ht : t.Counterpart f u) (name : OptionalName)
    (columns : List IndexedColumn) (clause : ConflictClause.State) :
    (primaryConflict name columns clause t).Parallel ((t, u) :: past)
      (State.Parallel f ((t, u) :: past)) (Result.Parallel f ((t, u) :: past))
      (primaryConflict (name.map f) (columns.map (.mapText f)) clause u) := by
  refine (ConflictClause.step_parallel ht clause).andThen ?_ ?_
  · rintro clause _ rfl
    exact .primaryConflict name columns clause
  · rintro conflict _ rfl
    exact .complete ⟨⟨rfl, .primaryKey columns conflict⟩, .none⟩

theorem uniqueConflict_parallel (ht : t.Counterpart f u) (name : OptionalName)
    (columns : List IndexedColumn) (clause : ConflictClause.State) :
    (uniqueConflict name columns clause t).Parallel ((t, u) :: past)
      (State.Parallel f ((t, u) :: past)) (Result.Parallel f ((t, u) :: past))
      (uniqueConflict (name.map f) (columns.map (.mapText f)) clause u) := by
  refine (ConflictClause.step_parallel ht clause).andThen ?_ ?_
  · rintro clause _ rfl
    exact .uniqueConflict name columns clause
  · rintro conflict _ rfl
    exact .complete ⟨⟨rfl, .unique columns conflict⟩, .none⟩

theorem checkConflict_parallel (ht : t.Counterpart f u) (name : OptionalName)
    {text text' : String} (htext : Past.Excerpt ((t, u) :: past) text text')
    (clause : ConflictClause.State) :
    (checkConflict name text clause t).Parallel ((t, u) :: past)
      (State.Parallel f ((t, u) :: past)) (Result.Parallel f ((t, u) :: past))
      (checkConflict (name.map f) text' clause u) := by
  refine (ConflictClause.step_parallel ht clause).andThen ?_ ?_
  · rintro clause _ rfl
    exact .checkConflict name clause htext
  · rintro conflict _ rfl
    exact .complete ⟨⟨rfl, .check htext⟩, .none⟩

theorem step_parallel (ht : t.Counterpart f u) {s s' : State} (hs : State.Parallel f past s s') :
    (step limits s t).Parallel ((t, u) :: past) (State.Parallel f ((t, u) :: past))
      (Result.Parallel f ((t, u) :: past)) (step limits s' u) := by
  have hnow := Past.Pairs.now past ht
  cases hs with
  | name => exact parallel_takeName _ hnow fun name => .named name
  | named name => exact afterName_parallel hnow name
  | primary name => exact parallel_takeKeyword _ _ hnow (.primaryColumns name .opening)
  | primaryColumns name columns =>
    refine (IndexedColumns.step_parallel ht columns).andThen ?_ ?_
    · rintro columns _ rfl
      exact .primaryColumns name columns
    · rintro columns _ rfl
      exact primaryConflict_parallel ht name columns .start
  | primaryConflict name columns clause => exact primaryConflict_parallel ht name columns clause
  | uniqueColumns name columns =>
    refine (IndexedColumns.step_parallel ht columns).andThen ?_ ?_
    · rintro columns _ rfl
      exact .uniqueColumns name columns
    · rintro columns _ rfl
      exact uniqueConflict_parallel ht name columns .start
  | uniqueConflict name columns clause => exact uniqueConflict_parallel ht name columns clause
  | check name hinner =>
    exact (Expression.step_parallel ht hinner).andThen (fun _ _ hs => .check name hs)
      fun _ _ htext => checkConflict_parallel ht name htext .start
  | checkConflict name clause htext => exact checkConflict_parallel ht name (htext.later _) clause
  | foreign name => exact parallel_takeKeyword _ _ hnow (.foreignOpen name)
  | foreignOpen name => exact parallel_takeKind _ rfl hnow (.foreignColumns name (.name []))
  | foreignColumns name columns =>
    refine (NameList.step_parallel ht _ _ columns).andThen ?_ ?_
    · rintro columns _ rfl
      exact .foreignColumns name columns
    · rintro columns _ rfl
      exact parallel_takeKeyword _ _ hnow (.references name columns .table)
  | references name columns htarget =>
    refine (References.step_parallel ht htarget).andThen
      (fun _ _ hs => .references name columns hs) ?_
    rintro r r' ⟨hkey, hheld⟩
    refine .complete ⟨⟨rfl, ?_⟩, hheld⟩
    dsimp only
    rw [hkey]
    exact .foreignKey columns r.key

end TableConstraint

end CreateTable.Grammar
