import CreateTable.Proofs.Limits.Columns

/-!
# What is blamed

Which token an error names, and for which causes. It is the token that was offered, but for three
cases: an expression that holds nothing is found behind its closing parenthesis, a `NOT` behind a
foreign key of a table is found behind the `NOT`, and a table without columns at its end.

## Main definitions

- `Verdict.Blames` — a verdict that refuses no token but those that may be blamed
- `State.suspect?` — a token that has been taken and is refused in place of the next one
- `Body.Blamed`, `Statement.Blamed` — the tokens and causes that a reader may blame

## Main statements

- `Statement.step_blames` — what one step of a statement blames
- `Takes.exists_last_of_suspect` — a token that is refused late is the last one taken
- `Statement.mem_of_blamed` — what is blamed has been taken or is the token offered
-/

namespace CreateTable

namespace Cause

/-- What a clause of a column or of a table constraint may find wrong. -/
inductive Clausal : Cause → Prop
  | expected (what : Expectation) : Clausal (.expected what)
  | expectedBeforeEnd (what : Expectation) : Clausal (.expectedBeforeEnd what)
  | unbalanced : Clausal .unbalanced
  | nestedTooDeep (limit : Nat) : Clausal (.nestedTooDeep limit)

theorem Clausal.kind_ne_unsupported {cause : Cause} (h : cause.Clausal) :
    cause.kind ≠ .unsupported := by
  cases h <;> exact nofun

/-- A cause that a token can be refused for: no fault of its own text, and nothing that is left out
    where the text ends. -/
structure Fits (cause : Cause) (t : Token) : Prop where
  grammatical : ∀ fault, cause ≠ .lexical fault
  present : cause.kind = .unsupported → t.kind ≠ .endOfInput

theorem Clausal.fits {cause : Cause} (h : cause.Clausal) (t : Token) : cause.Fits t := by
  cases h <;> exact ⟨nofun, nofun⟩

end Cause

/-- A token that stands where something else is due. -/
def Token.Blamed (t u : Token) (cause : Cause) : Prop := u = t ∧ cause.Clausal

-- ════════════════════════════════════════════════════════════════════════
-- Verdicts
-- ════════════════════════════════════════════════════════════════════════

/-- A verdict that leaves no token under suspicion but the one offered, that is complete only with
    results that are `finished`, and that refuses nothing but what is `blamed`. -/
inductive Verdict.Blames {σ α : Type} (suspect? : σ → Option Token) (t : Token)
    (finished : α → Prop) (blamed : Token → Cause → Prop) : Verdict σ α → Prop
  | taken {s : σ} : (∀ u ∈ suspect? s, u = t) → Blames suspect? t finished blamed (taken s)
  | complete {a : α} : finished a → Blames suspect? t finished blamed (complete a)
  | refused {u : Token} {cause : Cause} :
    blamed u cause → Blames suspect? t finished blamed (refused (u.error cause))

/-- No token is under suspicion. -/
def unsuspected {σ : Type} (_ : σ) : Option Token := none

namespace Verdict

variable {σ τ α β : Type} {suspect? : σ → Option Token} {suspect?' : τ → Option Token} {t : Token}
  {finished finished' : α → Prop} {final : β → Prop} {blamed blamed' : Token → Cause → Prop}
  {v : Verdict σ α} {s : σ} {e : ParseError}

theorem Blames.suspect_of_taken (h : v.Blames suspect? t finished blamed) (hv : v = .taken s) :
    ∀ u ∈ suspect? s, u = t := by
  cases h with
  | taken hs => exact Verdict.taken.inj hv ▸ hs
  | complete => cases hv
  | refused => cases hv

theorem Blames.blamed_of_refused (h : v.Blames suspect? t finished blamed) (hv : v = .refused e) :
    ∃ u cause, blamed u cause ∧ e = u.error cause := by
  subst hv
  obtain _ | _ | hblamed := h
  exact ⟨_, _, hblamed, rfl⟩

theorem Blames.mono (h : v.Blames suspect? t finished blamed)
    (hfinished : ∀ a, finished a → finished' a)
    (hblamed : ∀ u cause, blamed u cause → blamed' u cause) :
    v.Blames suspect? t finished' blamed' := by
  cases h with
  | taken hs => exact .taken hs
  | complete ha => exact .complete (hfinished _ ha)
  | refused he => exact .refused (hblamed _ _ he)

/-- A reader blames what its part does, and what is blamed behind the part. -/
theorem Blames.andThen {within : σ → τ} {after : α → Verdict τ β}
    (h : v.Blames suspect? t finished blamed) (hin : ∀ s, suspect?' (within s) = suspect? s)
    (hout : ∀ a, finished a → (after a).Blames suspect?' t final blamed')
    (hblamed : ∀ u cause, blamed u cause → blamed' u cause) :
    (v.andThen within after).Blames suspect?' t final blamed' := by
  cases h with
  | taken hs => exact .taken fun u hu => hs u (hin _ ▸ hu)
  | complete ha => exact hout _ ha
  | refused he => exact .refused (hblamed _ _ he)

/-- What is under suspicion in a part need not concern the reader. -/
theorem Blames.forget (h : v.Blames suspect? t finished blamed) :
    v.Blames unsuspected t finished blamed := by
  cases h with
  | taken => exact .taken nofun
  | complete ha => exact .complete ha
  | refused he => exact .refused he

/-- A state in which no token is under suspicion. -/
theorem blames_taken (h : suspect? s = none) :
    (taken s : Verdict σ α).Blames suspect? t finished blamed :=
  .taken fun u hu => by simp [h] at hu

/-- Something else is due. -/
theorem blames_refuse {what : Expectation} {u : Token}
    (h : ∀ cause, cause.Clausal → blamed t cause) :
    (t.refuse what : Verdict σ α).Blames suspect? u finished blamed := by
  refine .refused (h _ ?_)
  split
  · exact .expectedBeforeEnd _
  · exact .expected _

end Verdict

namespace Grammar

open Verdict

section

variable {σ α : Type} {suspect? : σ → Option Token} {finished : α → Prop} {t : Token}
  {blamed : Token → Cause → Prop}

theorem blames_takeKind {kind : TokenKind} {what : Expectation} {next : σ}
    (hnext : suspect? next = none) (h : ∀ cause, cause.Clausal → blamed t cause) :
    (takeKind t kind what next : Verdict σ α).Blames suspect? t finished blamed := by
  unfold takeKind
  split
  · exact blames_taken hnext
  · exact blames_refuse h

theorem blames_takeKeyword {word : Keyword} {what : Expectation} {next : σ}
    (hnext : suspect? next = none) (h : ∀ cause, cause.Clausal → blamed t cause) :
    (takeKeyword t word what next : Verdict σ α).Blames suspect? t finished blamed :=
  blames_takeKind hnext h

theorem blames_takeName {role : NameRole} {next : String → σ}
    (hnext : ∀ name, suspect? (next name) = none) (h : ∀ cause, cause.Clausal → blamed t cause) :
    (takeName t role next : Verdict σ α).Blames suspect? t finished blamed := by
  unfold takeName
  split
  · exact blames_taken (hnext _)
  · exact blames_refuse h

/-- A token under suspicion is the last one taken. -/
theorem Takes.exists_last_of_suspect {step : σ → Token → Verdict σ α} {s s' : σ} {ts : List Token}
    {u : Token} (h : Takes step s ts s') (hs : suspect? s = none)
    (hstep : ∀ s t s', step s t = .taken s' → ∀ u ∈ suspect? s', u = t) (hu : u ∈ suspect? s') :
    ∃ front n, ts = front ++ [u] ∧ Takes step s front n ∧ step n u = .taken s' := by
  have hne : s ≠ s' := by
    rintro rfl
    simp [hs] at hu
  obtain ⟨front, t, n, rfl, hfront, ht⟩ := h.exists_last hne
  obtain rfl := hstep n t _ ht u hu
  exact ⟨front, n, rfl, hfront, ht⟩

end

-- ════════════════════════════════════════════════════════════════════════
-- Clauses
-- ════════════════════════════════════════════════════════════════════════

theorem Token.kind_unexpected (t : Token) (what : Expectation) :
    (t.unexpected what).cause.kind = .malformed := by
  unfold Token.unexpected
  split <;> rfl

theorem Token.blamed_self {t : Token} {cause : Cause} (h : cause.Clausal) : t.Blamed t cause :=
  ⟨rfl, h⟩

theorem NameList.step_blames (role : NameRole) (closing : Expectation) (s : State) (t : Token) :
    (step role closing s t).Blames unsuspected t (fun _ => True) t.Blamed := by
  cases s with
  | name names => exact blames_takeName (fun _ => rfl) fun _ => Token.blamed_self
  | next names =>
    unfold step
    dsimp only
    split
    · exact blames_taken rfl
    · exact blames_taken rfl
    · exact blames_refuse fun _ => Token.blamed_self
  | closed names => exact .complete trivial

theorem SignedNumber.step_blames (what : Expectation) (s : State) (t : Token) :
    (step what s t).Blames unsuspected t (fun _ => True) t.Blamed := by
  cases s with
  | start =>
    unfold step
    dsimp only
    split
    · exact blames_taken rfl
    · split
      · exact blames_taken rfl
      · exact blames_refuse fun _ => Token.blamed_self
  | signed sign => exact blames_takeKind rfl fun _ => Token.blamed_self
  | closed tokens => exact .complete trivial

theorem ConflictClause.step_blames (s : State) (t : Token) :
    (step s t).Blames unsuspected t (fun _ => True) t.Blamed := by
  cases s with
  | start =>
    unfold step
    dsimp only
    split
    · exact blames_taken rfl
    · exact .complete trivial
  | conflict => exact blames_takeKeyword rfl fun _ => Token.blamed_self
  | resolution =>
    unfold step
    dsimp only
    split
    · exact blames_taken rfl
    · exact blames_refuse fun _ => Token.blamed_self
  | closed r => exact .complete trivial

namespace IndexedColumns

theorem afterColumn_blames (columns : List IndexedColumn) (t : Token) :
    (afterColumn columns t).Blames unsuspected t (fun _ => True) t.Blamed := by
  unfold afterColumn
  split
  · exact blames_taken rfl
  · exact blames_taken rfl
  · exact blames_refuse fun _ => Token.blamed_self

theorem afterCollation_blames (columns : List IndexedColumn) (column : IndexedColumn) (t : Token) :
    (afterCollation columns column t).Blames unsuspected t (fun _ => True) t.Blamed := by
  unfold afterCollation
  split
  · exact blames_taken rfl
  · exact afterColumn_blames _ t

theorem step_blames (s : State) (t : Token) :
    (step s t).Blames unsuspected t (fun _ => True) t.Blamed := by
  cases s with
  | opening => exact blames_takeKind rfl fun _ => Token.blamed_self
  | name columns => exact blames_takeName (fun _ => rfl) fun _ => Token.blamed_self
  | named columns column =>
    unfold step
    dsimp only
    split
    · exact blames_taken rfl
    · exact afterCollation_blames _ _ t
  | collation columns column => exact blames_takeName (fun _ => rfl) fun _ => Token.blamed_self
  | collated columns column => exact afterCollation_blames _ _ t
  | next columns => exact afterColumn_blames _ t
  | closed columns => exact .complete trivial

end IndexedColumns

namespace Expression

/-- The closing parenthesis of an expression that holds nothing. -/
def State.suspect? : State → Option Token
  | .empty close => some close
  | _ => none

theorem suspect_close (read : List Token) (t : Token) : ∀ u ∈ (close read t).suspect?, u = t := by
  intro u hu
  unfold close at hu
  split at hu
  · exact (Option.some.inj hu).symm
  · cases hu

theorem step_blames (limits : Limits) (s : State) (t : Token) :
    (step limits s t).Blames State.suspect? t (fun _ => s.suspect? = none)
      (s.suspect?.getD t).Blamed := by
  cases s with
  | opening => exact blames_takeKind rfl fun _ => Token.blamed_self
  | inside nested read =>
    unfold step
    dsimp only
    split
    · exact .refused (Token.blamed_self .unbalanced)
    · split
      · exact blames_taken rfl
      · exact .refused (Token.blamed_self (.nestedTooDeep _))
    · exact .taken (suspect_close read t)
    · exact blames_taken rfl
    · exact blames_taken rfl
  | closed text => exact .complete rfl
  | empty close => exact blames_refuse fun _ => Token.blamed_self

end Expression

namespace References

/-- A `NOT` that may belong to the clause or not. -/
def State.heldNot? : State → Option Token
  | .not _ word => some word
  | _ => none

theorem betweenClauses_blames {s : State} (hs : s.heldNot? = none) (key : ForeignKey) (t : Token) :
    (betweenClauses key t).Blames State.heldNot? t (fun r => r.heldNot = s.heldNot?)
      fun u cause => s.heldNot? = none ∧ t.Blamed u cause := by
  unfold betweenClauses
  split
  · exact blames_taken rfl
  · exact blames_taken rfl
  · exact .taken fun u hu => (Option.some.inj hu).symm
  · exact blames_taken rfl
  · exact .complete hs.symm

theorem step_blames (s : State) (t : Token) :
    (step s t).Blames State.heldNot? t (fun r => r.heldNot = s.heldNot?)
      fun u cause => s.heldNot? = none ∧ t.Blamed u cause := by
  cases s with
  | table => exact blames_takeName (fun _ => rfl) fun _ hcause => ⟨rfl, Token.blamed_self hcause⟩
  | named key =>
    unfold step
    dsimp only
    split
    · exact blames_taken rfl
    · exact betweenClauses_blames rfl key t
  | columns key names =>
    exact (NameList.step_blames _ _ names t).andThen (fun _ => rfl)
      (fun _ _ => betweenClauses_blames rfl _ t) fun _ _ h => ⟨rfl, h⟩
  | clauses key => exact betweenClauses_blames rfl key t
  | no key event => exact blames_takeKeyword rfl fun _ hcause => ⟨rfl, Token.blamed_self hcause⟩
  | matchType key =>
    exact blames_takeName (fun _ => rfl) fun _ hcause => ⟨rfl, Token.blamed_self hcause⟩
  | closed key => exact .complete rfl
  | _ =>
    -- in the other states the kind of the token says what becomes of it
    unfold step
    dsimp only
    split <;> first
      | exact blames_taken rfl
      | exact .complete rfl
      | exact blames_refuse fun _ hcause => ⟨rfl, Token.blamed_self hcause⟩

end References

-- ════════════════════════════════════════════════════════════════════════
-- Constraints and columns
-- ════════════════════════════════════════════════════════════════════════

namespace ColumnConstraint

/-- The closing parenthesis of an expression that holds nothing. -/
def State.suspect? : State → Option Token
  | .check inner | .expression inner => inner.suspect?
  | _ => none

theorem suspect_of_start? {word : Keyword} {s : State} (h : start? word = some s) :
    s.suspect? = none := by
  unfold start? at h
  split at h
  all_goals first
    | obtain rfl := Option.some.inj h
      rfl
    | cases h

theorem keyConflict_blames (order : SortOrder) (clause : ConflictClause.State) (t : Token) :
    (keyConflict order clause t).Blames State.suspect? t (fun _ => True) t.Blamed := by
  refine (ConflictClause.step_blames clause t).andThen (fun _ => rfl) (fun _ _ => ?_) fun _ _ h => h
  split
  · exact blames_taken rfl
  · exact .complete trivial

theorem default_blames (t : Token) :
    (default t).Blames State.suspect? t (fun _ => True) t.Blamed := by
  unfold default
  split
  · exact blames_taken rfl
  · exact (SignedNumber.step_blames _ .start t).andThen (fun _ => rfl)
      (fun _ _ => .complete trivial) fun _ _ h => h
  · split
    · exact blames_taken rfl
    · exact blames_refuse fun _ => Token.blamed_self

theorem step_blames (limits : Limits) (s : State) (t : Token) :
    (step limits s t).Blames State.suspect? t (fun _ => s.suspect? = none)
      (s.suspect?.getD t).Blamed := by
  have hclause : ∀ {within : ConflictClause.State → State} {f : ConflictResolution → Result}
      (clause : ConflictClause.State), (∀ clause, (within clause).suspect? = none) →
      ((ConflictClause.step clause t).andThen within fun r => .complete (f r)).Blames
        State.suspect? t (fun _ => (within clause).suspect? = none)
        ((within clause).suspect?.getD t).Blamed := by
    intro within f clause hwithin
    rw [hwithin]
    exact (ConflictClause.step_blames clause t).andThen hwithin (fun _ _ => .complete rfl)
      fun _ _ h => h
  cases s with
  | key => exact blames_takeKeyword rfl fun _ => Token.blamed_self
  | order =>
    unfold step
    dsimp only
    split
    · exact blames_taken rfl
    · exact (keyConflict_blames _ _ t).mono (fun _ _ => rfl) fun _ _ h => h
  | keyConflict order clause =>
    exact (keyConflict_blames order clause t).mono (fun _ _ => rfl) fun _ _ h => h
  | null => exact blames_takeKeyword rfl fun _ => Token.blamed_self
  | notNull clause => exact hclause clause fun _ => rfl
  | nullable clause => exact hclause clause fun _ => rfl
  | unique clause => exact hclause clause fun _ => rfl
  | check expression =>
    exact (Expression.step_blames limits expression t).andThen (fun _ => rfl)
      (fun _ hfinished => .complete hfinished) fun _ _ h => h
  | default => exact (default_blames t).mono (fun _ _ => rfl) fun _ _ h => h
  | number number =>
    exact (SignedNumber.step_blames _ number t).andThen (fun _ => rfl)
      (fun _ _ => .complete rfl) fun _ _ h => h
  | expression expression =>
    exact (Expression.step_blames limits expression t).andThen (fun _ => rfl)
      (fun _ hfinished => .complete hfinished) fun _ _ h => h
  | collation => exact blames_takeName (fun _ => rfl) fun _ => Token.blamed_self
  | references key =>
    exact (References.step_blames key t).forget.andThen (fun _ => rfl) (fun _ _ => .complete rfl)
      fun _ _ h => h.2
  | closed constraint => exact .complete rfl

end ColumnConstraint

namespace Column

/-- The closing parenthesis of an expression that holds nothing. -/
def State.suspect? : State → Option Token
  | .constraint _ inner => inner.suspect?
  | _ => none

/-- What the reader of a column may blame. -/
inductive Blamed (s : State) (t : Token) : Token → Cause → Prop
  /-- What a clause finds wrong. -/
  | clause {cause : Cause} : cause.Clausal → Blamed s t (s.suspect?.getD t) cause
  /-- The column is computed. -/
  | computed : s.suspect? = none → t.kind = .keyword .generated ∨ t.kind = .keyword .as →
    Blamed s t t .generatedColumn

variable {s : State} {t : Token}

theorem Blamed.self {cause : Cause} (hs : s.suspect? = none) (h : cause.Clausal) :
    Blamed s t t cause := by
  have hblamed : Blamed s t (s.suspect?.getD t) cause := .clause h
  rwa [hs] at hblamed

theorem Blamed.of_clause {u : Token} {cause : Cause} (hs : s.suspect? = none)
    (h : t.Blamed u cause) : Blamed s t u cause := by
  obtain ⟨rfl, hcause⟩ := h
  exact .self hs hcause

/-- A verdict of the reader of a column. -/
abbrev Accountable (s : State) (t : Token) (v : Verdict State CreateTable.Column) : Prop :=
  v.Blames State.suspect? t (fun _ => s.suspect? = none) (Blamed s t)

variable (column : CreateTable.Column)

theorem beginConstraint_blames {otherwise : Verdict State CreateTable.Column}
    (hs : s.suspect? = none) (h : Accountable s t otherwise) :
    Accountable s t (beginConstraint column t otherwise) := by
  unfold beginConstraint
  split
  · exact .refused (.computed hs (.inl ‹_›))
  · exact .refused (.computed hs (.inr ‹_›))
  · split
    · exact blames_taken (ColumnConstraint.suspect_of_start? ‹_›)
    · exact h
  · exact h

theorem betweenConstraints_blames (hs : s.suspect? = none) :
    Accountable s t (betweenConstraints column t) := by
  unfold betweenConstraints
  split
  · exact blames_taken rfl
  · exact beginConstraint_blames column hs (.complete hs)

theorem afterType_blames (hs : s.suspect? = none) (words : List Token) :
    Accountable s t (afterType column words t) := by
  unfold afterType
  split
  · exact betweenConstraints_blames _ hs
  · dsimp only
    split
    · exact blames_taken rfl
    · exact betweenConstraints_blames _ hs

theorem afterSize_blames (hs : s.suspect? = none) (size : List Token) :
    Accountable s t (afterSize column size t) := by
  unfold afterSize
  split
  · exact blames_taken rfl
  · exact blames_taken rfl
  · exact blames_refuse fun _ => .self hs

theorem afterConstraint_blames (hs : s.suspect? = none) (r : ColumnConstraint.Result) :
    Accountable s t (afterConstraint column r t) := by
  unfold afterConstraint
  dsimp only
  split
  · exact betweenConstraints_blames _ hs
  · exact blames_takeKeyword rfl fun _ => .self hs

theorem step_blames (limits : Limits) (s : State) (t : Token) :
    Accountable s t (step limits s t) := by
  cases s with
  | type column words =>
    unfold step
    dsimp only
    split
    · exact blames_taken rfl
    · exact afterType_blames column rfl words
  | size column number =>
    exact (SignedNumber.step_blames _ number t).andThen (fun _ => rfl)
      (fun size _ => afterSize_blames column rfl size) fun _ _ => .of_clause rfl
  | scale column size number =>
    exact (SignedNumber.step_blames _ number t).andThen (fun _ => rfl)
      (fun _ _ => blames_takeKind rfl fun _ => .self rfl) fun _ _ => .of_clause rfl
  | constraints column => exact betweenConstraints_blames column rfl
  | constraintName column => exact blames_takeName (fun _ => rfl) fun _ => .self rfl
  | named column => exact beginConstraint_blames column rfl (blames_refuse fun _ => .self rfl)
  | constraint column constraint =>
    refine (ColumnConstraint.step_blames limits constraint t).andThen (fun _ => rfl)
      (fun r hfinished => ?_) ?_
    · -- a constraint that is complete leaves no token under suspicion
      have hs : (State.constraint column constraint).suspect? = none := hfinished
      exact afterConstraint_blames column hs r
    · rintro u cause ⟨rfl, hcause⟩
      exact .clause hcause

end Column

namespace TableConstraint

/-- The closing parenthesis of an expression that holds nothing, or a `NOT` that may not belong to
    the constraint. -/
def State.suspect? : State → Option Token
  | .check _ inner => inner.suspect?
  | .references _ _ inner => inner.heldNot?
  | _ => none

theorem suspect_of_rule? {name : OptionalName} {word : Keyword} {s : State}
    (h : rule? name word = some s) : s.suspect? = none := by
  unfold rule? at h
  split at h
  all_goals first
    | obtain rfl := Option.some.inj h
      rfl
    | cases h

theorem suspect_of_start? {t : Token} {s : State} (h : start? t = some s) : s.suspect? = none := by
  unfold start? at h
  split at h
  · obtain rfl := Option.some.inj h
    rfl
  · exact suspect_of_rule? h
  · cases h

theorem afterName_blames (name : String) (t : Token) :
    (afterName name t).Blames State.suspect? t (fun r => r.heldNot = none) t.Blamed := by
  unfold afterName
  split
  · split
    · exact blames_taken (suspect_of_rule? ‹_›)
    · exact blames_refuse fun _ => Token.blamed_self
  · exact blames_refuse fun _ => Token.blamed_self

/-- A conflict clause at the end of a constraint. -/
theorem conflict_blames {within : ConflictClause.State → State} {f : ConflictResolution → Result}
    (hwithin : ∀ clause, (within clause).suspect? = none) (hf : ∀ r, (f r).heldNot = none)
    (clause : ConflictClause.State) (t : Token) :
    ((ConflictClause.step clause t).andThen within fun r => .complete (f r)).Blames
      State.suspect? t (fun r => r.heldNot = none) t.Blamed := by
  exact (ConflictClause.step_blames clause t).andThen hwithin (fun r _ => .complete (hf r))
    fun _ _ h => h

theorem step_blames (limits : Limits) (s : State) (t : Token) :
    (step limits s t).Blames State.suspect? t (fun r => r.heldNot = s.suspect?)
      (s.suspect?.getD t).Blamed := by
  cases s with
  | name => exact blames_takeName (fun _ => rfl) fun _ => Token.blamed_self
  | named name => exact afterName_blames name t
  | primary name => exact blames_takeKeyword rfl fun _ => Token.blamed_self
  | primaryColumns name columns =>
    exact (IndexedColumns.step_blames columns t).andThen (fun _ => rfl)
      (fun _ _ => conflict_blames (fun _ => rfl) (fun _ => rfl) .start t) fun _ _ h => h
  | primaryConflict name columns clause =>
    exact conflict_blames (fun _ => rfl) (fun _ => rfl) clause t
  | uniqueColumns name columns =>
    exact (IndexedColumns.step_blames columns t).andThen (fun _ => rfl)
      (fun _ _ => conflict_blames (fun _ => rfl) (fun _ => rfl) .start t) fun _ _ h => h
  | uniqueConflict name columns clause =>
    exact conflict_blames (fun _ => rfl) (fun _ => rfl) clause t
  | check name expression =>
    refine (Expression.step_blames limits expression t).andThen (fun _ => rfl)
      (fun text hfinished => ?_) fun _ _ h => h
    -- an expression that is complete leaves no token under suspicion
    have hsuspect : (State.check name expression).suspect? = none := hfinished
    rw [hsuspect]
    exact conflict_blames (fun _ => rfl) (fun _ => rfl) .start t
  | checkConflict name expression clause =>
    exact conflict_blames (fun _ => rfl) (fun _ => rfl) clause t
  | foreign name => exact blames_takeKeyword rfl fun _ => Token.blamed_self
  | foreignOpen name => exact blames_takeKind rfl fun _ => Token.blamed_self
  | foreignColumns name columns =>
    exact (NameList.step_blames _ _ columns t).andThen (fun _ => rfl)
      (fun _ _ => blames_takeKeyword rfl fun _ => Token.blamed_self) fun _ _ h => h
  | references name columns key =>
    refine (References.step_blames key t).andThen (fun _ => rfl)
      (fun r hfinished => .complete hfinished) fun u cause h => ?_
    have hsuspect : (State.references name columns key).suspect? = none := h.1
    rw [hsuspect]
    exact h.2

end TableConstraint

-- ════════════════════════════════════════════════════════════════════════
-- Bodies
-- ════════════════════════════════════════════════════════════════════════

namespace Body

/-- The token that is refused late in the item that is being read. -/
def State.suspect? : State → Option Token
  | .column _ inner => inner.suspect?
  | .constraint _ inner => inner.suspect?
  | _ => none

/-- What is read of a body, where it may end. -/
def State.progress? : State → Option Progress
  | .item p | .constraint p _ => some p
  | _ => none

/-- What the reader of a body may blame. -/
inductive Blamed (s : State) (t : Token) : Token → Cause → Prop
  /-- What an item finds wrong. -/
  | clause {cause : Cause} : cause.Clausal → Blamed s t (s.suspect?.getD t) cause
  /-- A column is computed. -/
  | computed {p : Progress} {column : Column.State} : s = .column p column → s.suspect? = none →
    t.kind = .keyword .generated ∨ t.kind = .keyword .as → Blamed s t t .generatedColumn
  /-- One more column. -/
  | column (limit : Nat) : s.suspect? = none → Blamed s t t (.tooManyColumns limit)
  /-- The first token, if there is no column. -/
  | first {p : Progress} :
    s.progress? = some p → p.columns = [] → Blamed s t p.first .noColumns

variable {limits : Limits} {p : Progress} {s : State} {t : Token} {finished : Items → Prop}

theorem Blamed.self {cause : Cause} (hs : s.suspect? = none) (h : cause.Clausal) :
    Blamed s t t cause := by
  have hblamed : Blamed s t (s.suspect?.getD t) cause := .clause h
  rwa [hs] at hblamed

theorem requireColumn_blames {v : Verdict State Items}
    (hfirst : p.columns = [] → Blamed s t p.first .noColumns)
    (hv : v.Blames State.suspect? t finished (Blamed s t)) :
    (requireColumn p v).Blames State.suspect? t finished (Blamed s t) := by
  unfold requireColumn
  split
  · exact .refused (hfirst (List.isEmpty_iff.1 ‹_›))
  · exact hv

theorem finish_blames (hs : s.suspect? = none)
    (hfirst : p.columns = [] → Blamed s t p.first .noColumns) :
    (finish p t).Blames State.suspect? t finished (Blamed s t) :=
  requireColumn_blames hfirst (blames_takeKind rfl fun _ => .self hs)

theorem beginColumn_blames (hs : s.suspect? = none) :
    (beginColumn limits p t).Blames State.suspect? t finished (Blamed s t) := by
  unfold beginColumn
  split
  · exact .refused (.column _ hs)
  · exact blames_takeName (fun _ => rfl) fun _ => .self hs

theorem item_blames (hs : s.suspect? = none)
    (hfirst : ¬(p.columns.isEmpty ∧ p.constraints.isEmpty) → p.columns = [] →
      Blamed s t p.first .noColumns) :
    (item limits p t).Blames State.suspect? t finished (Blamed s t) := by
  unfold item
  split
  · rename_i h
    exact finish_blames hs (hfirst h.2)
  · split
    · exact blames_taken (TableConstraint.suspect_of_start? ‹_›)
    · split
      · exact beginColumn_blames hs
      · exact blames_refuse fun _ => .self hs

theorem afterColumn_blames (hs : s.suspect? = none)
    (hfirst : p.columns = [] → Blamed s t p.first .noColumns) :
    (afterColumn p t).Blames State.suspect? t finished (Blamed s t) := by
  unfold afterColumn
  split
  · exact blames_taken rfl
  · exact finish_blames hs hfirst

theorem afterConstraint_blames (hs : s.suspect? = none)
    (hfirst : p.columns = [] → Blamed s t p.first .noColumns) :
    (afterConstraint p t).Blames State.suspect? t finished (Blamed s t) := by
  unfold afterConstraint
  split
  · exact blames_taken (TableConstraint.suspect_of_start? ‹_›)
  · exact afterColumn_blames hs hfirst

theorem step_blames (limits : Limits) (s : State) (t : Token) :
    (step limits s t).Blames State.suspect? t (fun _ => s.suspect? = none) (Blamed s t) := by
  cases s with
  | start => exact item_blames rfl fun h => absurd ⟨rfl, rfl⟩ h
  | item p => exact item_blames rfl fun _ => .first rfl
  | column p column =>
    refine (Column.step_blames limits column t).andThen (fun _ => rfl)
      (fun _ hsuspect => afterColumn_blames hsuspect nofun) fun u cause h => ?_
    cases h with
    | clause hcause => exact .clause hcause
    | computed hs ht => exact .computed rfl hs ht
  | constraint p constraint =>
    refine (TableConstraint.step_blames limits constraint t).andThen (fun _ => rfl)
      (fun r hheld => ?_) fun u cause h => ?_
    · have hfirst : p.columns = [] → Blamed (.constraint p constraint) t p.first .noColumns :=
        .first rfl
      split
      · rename_i hnone
        exact afterConstraint_blames (hheld.symm.trans hnone) hfirst
      · rename_i word hword
        refine requireColumn_blames hfirst (blames_refuse fun cause hcause => ?_)
        -- the `NOT` that is handed back is the token under suspicion
        have hsuspect : (State.constraint p constraint).suspect? = some word :=
          hheld.symm.trans hword
        have hblamed : Blamed (.constraint p constraint) t _ cause := .clause hcause
        rwa [hsuspect] at hblamed
    · obtain ⟨rfl, hcause⟩ := h
      exact .clause hcause
  | closed items => exact .complete rfl

/-- The first token of a body is kept, and if it begins a column, there is one when the column has
    been read. -/
def Begun (us : List Token) : State → Prop
  | .start => us = []
  | .column p _ => us.head? = some p.first
  | .item p | .constraint p _ =>
    us.head? = some p.first ∧ (TableConstraint.start? p.first = none → p.columns ≠ [])
  | .closed _ => True

variable {us : List Token} {s' : State}

theorem begun_afterColumn (hhead : us.head? = some p.first) (hcolumns : p.columns ≠ [])
    (h : afterColumn p t = .taken s) : Begun (us ++ [t]) s := by
  have hsnoc : (us ++ [t]).head? = some p.first := by simp [hhead]
  unfold afterColumn at h
  split at h
  · obtain rfl := Verdict.taken.inj h
    exact ⟨hsnoc, fun _ => hcolumns⟩
  · obtain ⟨-, -, rfl⟩ := finish_eq_taken h
    trivial

theorem begun_step (h : Begun us s) (hstep : step limits s t = .taken s') :
    Begun (us ++ [t]) s' := by
  cases s with
  | start =>
    obtain rfl := h
    obtain ⟨-, -, rfl⟩ | ⟨inner, hinner, rfl⟩ | ⟨-, -, name, -, rfl⟩ := item_eq_taken hstep
    · trivial
    · refine ⟨rfl, fun hnone => ?_⟩
      exact nomatch hinner.symm.trans hnone
    · rfl
  | item p =>
    obtain ⟨hhead, hcolumns⟩ := h
    have hsnoc : (us ++ [t]).head? = some p.first := by simp [hhead]
    obtain ⟨-, -, rfl⟩ | ⟨inner, -, rfl⟩ | ⟨-, -, name, -, rfl⟩ := item_eq_taken hstep
    · trivial
    · exact ⟨hsnoc, hcolumns⟩
    · exact hsnoc
  | column p column =>
    have hhead : us.head? = some p.first := h
    obtain ⟨column', -, rfl⟩ | ⟨c, -, hafter⟩ := Verdict.andThen_eq_taken.1 hstep
    · show (us ++ [t]).head? = some p.first
      simp [hhead]
    · exact begun_afterColumn (p := p.addColumn c) hhead (List.cons_ne_nil _ _) hafter
  | constraint p constraint =>
    obtain ⟨hhead, hcolumns⟩ := h
    have hsnoc : (us ++ [t]).head? = some p.first := by simp [hhead]
    obtain ⟨constraint', -, rfl⟩ | ⟨r, -, hafter⟩ := Verdict.andThen_eq_taken.1 hstep
    · exact ⟨hsnoc, hcolumns⟩
    · split at hafter
      · unfold afterConstraint afterColumn at hafter
        split at hafter
        · obtain rfl := Verdict.taken.inj hafter
          exact ⟨hsnoc, hcolumns⟩
        · split at hafter
          · obtain rfl := Verdict.taken.inj hafter
            exact ⟨hsnoc, hcolumns⟩
          · obtain ⟨-, -, rfl⟩ := finish_eq_taken hafter
            trivial
      · unfold requireColumn at hafter
        split at hafter
        · cases hafter
        · exact absurd hafter (Token.refuse_ne_taken _ _ _)
  | closed items => cases hstep

theorem begun_of_takes (h : Takes (step limits) .start us s) : Begun us s :=
  h.invariant Begun rfl fun _ _ _ _ => begun_step

theorem Begun.of_progress (h : Begun us s) (hp : s.progress? = some p) :
    us.head? = some p.first ∧ (TableConstraint.start? p.first = none → p.columns ≠ []) := by
  cases s with
  | item q =>
    obtain rfl := Option.some.inj hp
    exact h
  | constraint q constraint =>
    obtain rfl := Option.some.inj hp
    exact h
  | _ => cases hp

/-- What the reader of a body blames has been taken or is the token offered. -/
theorem mem_of_blamed {u : Token} {cause : Cause} (h : Takes (step limits) .start us s)
    (hu : Blamed s t u cause) : u ∈ us ++ [t] ∧ cause.Fits u := by
  cases hu with
  | clause hcause =>
    refine ⟨?_, hcause.fits _⟩
    cases hs : s.suspect? with
    | none => simp
    | some u =>
      obtain ⟨front, n, rfl, -⟩ := h.exists_last_of_suspect rfl
        (fun s t _ hs => (step_blames limits s t).suspect_of_taken hs) hs
      simp
  | computed _ _ ht =>
    refine ⟨by simp, nofun, fun _ => ?_⟩
    obtain ht | ht := ht <;> simp [ht]
  | column limit => exact ⟨by simp, nofun, nofun⟩
  | first hp =>
    obtain ⟨hhead, -⟩ := (begun_of_takes h).of_progress hp
    exact ⟨List.mem_append_left _ (List.mem_of_mem_head? hhead), nofun, nofun⟩

end Body

-- ════════════════════════════════════════════════════════════════════════
-- Statements
-- ════════════════════════════════════════════════════════════════════════

namespace Statement

/-- The token that is refused late in the body. -/
def State.suspect? : State → Option Token
  | .body _ inner => inner.suspect?
  | _ => none

/-- Where the body may end there is a column. -/
def State.HasColumn : State → Prop
  | .body _ inner => ∀ p, inner.progress? = some p → p.columns ≠ []
  | _ => True

/-- What the reader of a statement may blame. -/
def Blamed : State → Token → Token → Cause → Prop
  | .body _ body, t, u, cause => Body.Blamed body t u cause
  | _, t, u, cause => u = t ∧ cause.Fits u

variable {limits : Limits} {finished : Table → Prop} {t : Token} {blamed : Token → Cause → Prop}
  (table : Table)

theorem tableWord_blames (t : Token) :
    (tableWord table t).Blames State.suspect? t finished
      fun u cause => u = t ∧ cause.Fits u := by
  unfold tableWord
  split
  · exact blames_taken rfl
  · split
    · exact .refused ⟨rfl, nofun, fun _ => by simp [*]⟩
    · exact blames_refuse fun _ h => ⟨rfl, h.fits t⟩
  · exact blames_refuse fun _ h => ⟨rfl, h.fits t⟩

theorem afterName_blames (t : Token) :
    (afterName table t).Blames State.suspect? t finished
      fun u cause => u = t ∧ cause.Fits u := by
  unfold afterName
  split
  · exact .refused ⟨rfl, nofun, fun _ => Token.kind_ne_endOfInput_of_isKeyword ‹_›⟩
  · exact blames_takeKind rfl fun _ h => ⟨rfl, h.fits t⟩

theorem finish_blames (hblamed : ∀ cause, cause.Clausal → blamed t cause) :
    (finish table t).Blames State.suspect? t (fun _ => True) blamed := by
  unfold finish
  split
  · exact blames_taken rfl
  · exact .complete trivial
  · exact blames_refuse hblamed

theorem beginOption_blames {otherwise : Verdict State Table}
    (h : otherwise.Blames State.suspect? t (fun _ => True) blamed) :
    (beginOption table t otherwise).Blames State.suspect? t (fun _ => True) blamed := by
  unfold beginOption
  split
  · exact blames_taken rfl
  · split
    · exact blames_taken rfl
    · exact h

/-- What one step of a statement blames. -/
theorem step_blames (limits : Limits) (s : State) (t : Token) :
    (step limits s t).Blames State.suspect? t (fun _ => True) (Blamed s t) := by
  have hself : ∀ cause : Cause, cause.Clausal → t = t ∧ cause.Fits t :=
    fun _ h => ⟨rfl, h.fits t⟩
  cases s with
  | start => exact blames_takeKeyword rfl hself
  | created =>
    unfold step
    dsimp only
    split
    · exact blames_taken rfl
    · exact blames_taken rfl
    · exact tableWord_blames _ t
  | temporary => exact tableWord_blames _ t
  | table table =>
    unfold step
    dsimp only
    split
    · exact blames_taken rfl
    · exact blames_takeName (fun _ => rfl) hself
  | ifWord table => exact blames_takeKeyword rfl hself
  | ifNot table => exact blames_takeKeyword rfl hself
  | name table => exact blames_takeName (fun _ => rfl) hself
  | named table name =>
    unfold step
    dsimp only
    split
    · exact blames_taken rfl
    · exact afterName_blames _ t
  | qualified table => exact blames_takeName (fun _ => rfl) hself
  | bodyOpen table => exact afterName_blames table t
  | body table body =>
    exact (Body.step_blames limits body t).andThen (fun _ => rfl)
      (fun _ hsuspect => beginOption_blames _ (finish_blames _ fun _ => Body.Blamed.self hsuspect))
      fun _ _ h => h
  | without table =>
    unfold step
    dsimp only
    split
    · exact blames_taken rfl
    · exact blames_refuse hself
  | optionEnd table =>
    unfold step
    dsimp only
    split
    · exact blames_taken rfl
    · exact finish_blames table hself
  | option table => exact beginOption_blames table (blames_refuse hself)
  | terminated table =>
    unfold step
    dsimp only
    split
    · exact blames_taken rfl
    · exact .complete trivial
    · exact .refused ⟨rfl, nofun, fun _ => ‹_›⟩

/-- A token that is refused late is the last one taken. -/
theorem exists_last_of_suspect {s : State} {ts : List Token} {u : Token}
    (h : Takes (step limits) .start ts s) (hu : s.suspect? = some u) :
    ∃ front n, ts = front ++ [u] ∧ Takes (step limits) .start front n ∧
      step limits n u = .taken s :=
  h.exists_last_of_suspect rfl
    (fun s t _ hs => (step_blames limits s t).suspect_of_taken hs) hu

/-- Unless a column is missing, the token under suspicion is blamed, or the one offered if there is
    none. -/
theorem eq_of_blamed {s : State} {u : Token} {cause : Cause} (hu : Blamed s t u cause)
    (hcolumn : s.HasColumn) : u = s.suspect?.getD t := by
  cases s with
  | body table body =>
    cases hu with
    | clause => rfl
    | computed _ hs => exact (congrArg (·.getD t) hs).symm
    | column _ hs => exact (congrArg (·.getD t) hs).symm
    | first hp hempty => exact absurd hempty (hcolumn _ hp)
  | _ => exact hu.1

/-- What the reader of a statement blames has been taken or is the token offered. -/
theorem mem_of_blamed {s : State} {ts : List Token} {u : Token} {cause : Cause}
    (h : Takes (step limits) .start ts s) (hu : Blamed s t u cause) :
    u ∈ ts ++ [t] ∧ cause.Fits u := by
  cases s with
  | body table body =>
    obtain ⟨header, opening, us, rfl, -, -, hbody⟩ := behind_of_takes h
    obtain ⟨hmem, hcause⟩ := Body.mem_of_blamed hbody hu
    refine ⟨?_, hcause⟩
    rw [List.append_assoc, List.cons_append]
    exact List.mem_append_right _ (List.mem_cons_of_mem _ hmem)
  | _ =>
    obtain ⟨rfl, hcause⟩ := hu
    exact ⟨List.mem_append_right _ (List.mem_singleton_self _), hcause⟩

end Statement

end Grammar

end CreateTable
