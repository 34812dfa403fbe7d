import CreateTable.Proofs.Parallel.Verdicts

/-!
# Clauses side by side

The readers of the clauses that columns and tables have in common go with each other on tokens that
do.

## Main definitions

- `Expression.depth` — the parentheses open behind some tokens of an expression
- `SignedNumber.State.Parallel`, `Expression.State.Parallel`, `References.State.Parallel` — states
  that go with each other

## Main statements

- `Expression.step_parallel` — expressions are read side by side
- `References.step_parallel` — foreign keys are read side by side
-/

namespace CreateTable.Grammar

open Verdict

variable {f : String → String} {past : Past} {t u : Token}

-- ════════════════════════════════════════════════════════════════════════
-- Names and conflicts
-- ════════════════════════════════════════════════════════════════════════

/-- A list of names with other names. -/
def NameList.State.mapText (f : String → String) : NameList.State → NameList.State
  | .name names => .name (names.map f)
  | .next names => .next (names.map f)
  | .closed names => .closed (names.map f)

theorem NameList.step_parallel (ht : t.Counterpart f u) (role : NameRole) (closing : Expectation)
    (s : NameList.State) :
    (step role closing s t).Parallel ((t, u) :: past) (fun s s' => s' = s.mapText f)
      (fun names names' => names' = names.map f) (step role closing (s.mapText f) u) := by
  have hnow := Past.Pairs.now past ht
  cases s with
  | name names => exact parallel_takeName role hnow fun _ => rfl
  | next names =>
    unfold step
    dsimp only [State.mapText]
    have hkind := ht.similar
    generalize t.kind = k, u.kind = k' at hkind ⊢
    cases hkind with
    | same =>
      split
      · exact .taken rfl
      · exact .taken (congrArg State.closed List.map_reverse.symm)
      · exact parallel_refuse closing hnow
    | _ => exact parallel_refuse closing hnow
  | closed names => exact .complete rfl

theorem ConflictClause.resolution?_of_counterpart (ht : t.Counterpart f u) :
    resolution? u = resolution? t := by
  unfold resolution?
  rw [ht.kind]
  cases t.kind <;> rfl

theorem ConflictClause.step_parallel (ht : t.Counterpart f u) (s : ConflictClause.State) :
    (step s t).Parallel ((t, u) :: past) Eq Eq (step s u) := by
  have hnow := Past.Pairs.now past ht
  cases s with
  | start =>
    unfold step
    dsimp only
    rw [ht.isKeyword]
    split
    · exact .taken rfl
    · exact .complete rfl
  | conflict => exact parallel_takeKeyword _ _ hnow rfl
  | resolution =>
    unfold step
    dsimp only
    rw [resolution?_of_counterpart ht]
    split
    · exact .taken rfl
    · exact parallel_refuse _ hnow
  | closed r => exact .complete rfl

-- ════════════════════════════════════════════════════════════════════════
-- Numbers
-- ════════════════════════════════════════════════════════════════════════

namespace SignedNumber

/-- Numbers that go with each other, in a row with the tokens `before` them on either side. -/
inductive State.Parallel (before before' : List Token) (past : Past) : State → State → Prop
  | start : past.Latest before before' → Parallel before before' past .start .start
  | signed {sign sign' : Token} : past.Latest (sign :: before) (sign' :: before') →
    Parallel before before' past (.signed sign) (.signed sign')
  | closed {tokens tokens' : List Token} : tokens ≠ [] →
    past.Latest (tokens.reverse ++ before) (tokens'.reverse ++ before') →
    Parallel before before' past (.closed tokens) (.closed tokens')

/-- The tokens of numbers that go with each other. -/
def Read (before before' : List Token) (past : Past) (tokens tokens' : List Token) : Prop :=
  tokens ≠ [] ∧ past.Latest (tokens.reverse ++ before) (tokens'.reverse ++ before')

theorem Read.excerpt {before before' tokens tokens' : List Token}
    (h : Read before before' past tokens tokens') :
    past.Excerpt (Token.verbatim (before.reverse ++ tokens))
      (Token.verbatim (before'.reverse ++ tokens')) := by
  obtain ⟨hne, hlatest⟩ := h
  have hexcerpt := hlatest.excerpt (by simp [hne])
  simpa using hexcerpt

theorem step_parallel (ht : t.Counterpart f u) (what : Expectation) {before before' : List Token}
    {s s' : State} (hs : State.Parallel before before' past s s') :
    (step what s t).Parallel ((t, u) :: past) (State.Parallel before before' ((t, u) :: past))
      (Read before before' past) (step what s' u) := by
  have hnow := Past.Pairs.now past ht
  cases hs with
  | start hbefore =>
    unfold step
    dsimp only
    simp only [ht.similar.eq_iff .number rfl, ht.isSign]
    split
    · exact .taken (.closed (List.cons_ne_nil _ _) hbefore.cons)
    · split
      · exact .taken (.signed hbefore.cons)
      · exact parallel_refuse what hnow
  | signed hsign =>
    exact parallel_takeKind what rfl hnow (.closed (List.cons_ne_nil _ _) hsign.cons)
  | closed hne hlatest => exact .complete ⟨hne, hlatest⟩

end SignedNumber

-- ════════════════════════════════════════════════════════════════════════
-- Expressions
-- ════════════════════════════════════════════════════════════════════════

namespace Expression

/-- How many parentheses are open behind some tokens of an expression: its own one, those that are
    opened, and not those that are closed. -/
def depth (ts : List Token) : Int :=
  1 + ts.countP (·.kind = .leftParen) - ts.countP (·.kind = .rightParen)

theorem depth_cons (t : Token) (ts : List Token) :
    depth (t :: ts) = depth ts + (if t.kind = .leftParen then 1 else 0) -
      (if t.kind = .rightParen then 1 else 0) := by
  simp only [depth, List.countP_cons, decide_eq_true_eq]
  split <;> split <;> omega

/-- Expressions that go with each other, with as many parentheses open as their tokens say. -/
inductive State.Parallel (f : String → String) (past : Past) : State → State → Prop
  | opening : Parallel f past .opening .opening
  | inside {nested : Nat} {read read' : List Token} : past.Latest read read' →
    depth read = nested + 1 → Parallel f past (.inside nested read) (.inside nested read')
  | closed {text text' : String} : past.Excerpt text text' →
    Parallel f past (.closed text) (.closed text')
  | empty {close close' : Token} : past.Pairs f close close' →
    Parallel f past (.empty close) (.empty close')

variable {limits : Limits}

/-- One more token of an expression that is neither of the parentheses. -/
private theorem parallel_other {nested : Nat} {read read' : List Token}
    (hlatest : past.Latest read read') (hdepth : depth read = nested + 1)
    (hleft : t.kind ≠ .leftParen) (hright : t.kind ≠ .rightParen) :
    State.Parallel f ((t, u) :: past) (.inside nested (t :: read)) (.inside nested (u :: read')) := by
  refine .inside hlatest.cons ?_
  rw [depth_cons, if_neg hleft, if_neg hright, hdepth]
  omega

/-- The outer closing parenthesis. -/
private theorem parallel_close {read read' : List Token} (hnow : past.Pairs f t u)
    (hread : past.Excerpt (Token.verbatim read.reverse) (Token.verbatim read'.reverse) ∨ read = [])
    (hempty : read'.isEmpty = read.isEmpty) :
    State.Parallel f past (close read t) (close read' u) := by
  unfold close
  rw [hempty]
  split
  · exact .empty hnow
  · obtain hread | rfl := hread
    · exact .closed hread
    · exact absurd rfl ‹_›

theorem step_parallel (ht : t.Counterpart f u) {s s' : State} (hs : State.Parallel f past s s') :
    (step limits s t).Parallel ((t, u) :: past) (State.Parallel f ((t, u) :: past))
      (Past.Excerpt ((t, u) :: past)) (step limits s' u) := by
  have hnow := Past.Pairs.now past ht
  cases hs with
  | opening => exact parallel_takeKind _ rfl hnow (.inside .nil rfl)
  | @inside nested read read' hlatest hdepth =>
    unfold step
    dsimp only
    have hkind := ht.similar
    generalize hk : t.kind = k, u.kind = k' at hkind ⊢
    cases hkind with
    | same =>
      split
      · exact parallel_error _ hnow
      · split
        · refine .taken (.inside hlatest.cons ?_)
          rw [depth_cons, hk, hdepth]
          simp
        · exact parallel_error _ hnow
      · refine .taken (parallel_close hnow ?_ hlatest.isEmpty)
        obtain rfl | hne := eq_or_ne read []
        · exact .inr rfl
        · exact .inl ((hlatest.excerpt hne).later _)
      · refine .taken (.inside hlatest.cons ?_)
        rw [depth_cons, hk, hdepth]
        simp
      · rename_i hleft houter hinner
        refine .taken (parallel_other hlatest hdepth (hk ▸ hleft) ?_)
        rintro hright
        cases nested with
        | zero => exact houter (hk ▸ hright) rfl
        | succ nested => exact hinner nested (hk ▸ hright) rfl
    | quotedIdentifier | stringLiteral =>
      exact .taken (parallel_other hlatest hdepth (by simp [hk]) (by simp [hk]))
  | closed hexcerpt => exact .complete (hexcerpt.later _)
  | empty hclose => exact parallel_refuse _ (hclose.later _)

end Expression

-- ════════════════════════════════════════════════════════════════════════
-- Columns of a key
-- ════════════════════════════════════════════════════════════════════════

namespace IndexedColumns

/-- Columns of a key with other names. -/
def State.mapText (f : String → String) : State → State
  | .opening => .opening
  | .name columns => .name (columns.map (.mapText f))
  | .named columns column => .named (columns.map (.mapText f)) (column.mapText f)
  | .collation columns column => .collation (columns.map (.mapText f)) (column.mapText f)
  | .collated columns column => .collated (columns.map (.mapText f)) (column.mapText f)
  | .next columns => .next (columns.map (.mapText f))
  | .closed columns => .closed (columns.map (.mapText f))

theorem afterColumn_parallel (hnow : past.Pairs f t u) (columns : List IndexedColumn) :
    (afterColumn columns t).Parallel past (fun s s' => s' = s.mapText f)
      (fun cs cs' => cs' = cs.map (.mapText f)) (afterColumn (columns.map (.mapText f)) u) := by
  unfold afterColumn
  have hkind := hnow.counterpart.similar
  generalize t.kind = k, u.kind = k' at hkind ⊢
  cases hkind with
  | same =>
    split
    · exact .taken rfl
    · exact .taken (congrArg State.closed List.map_reverse.symm)
    · exact parallel_refuse _ hnow
  | _ => exact parallel_refuse _ hnow

theorem afterCollation_parallel (hnow : past.Pairs f t u) (columns : List IndexedColumn)
    (column : IndexedColumn) :
    (afterCollation columns column t).Parallel past (fun s s' => s' = s.mapText f)
      (fun cs cs' => cs' = cs.map (.mapText f))
      (afterCollation (columns.map (.mapText f)) (column.mapText f) u) := by
  unfold afterCollation
  rw [hnow.counterpart.sortOrder?]
  split
  · exact .taken rfl
  · exact afterColumn_parallel hnow (column :: columns)

theorem step_parallel (ht : t.Counterpart f u) (s : State) :
    (step s t).Parallel ((t, u) :: past) (fun s s' => s' = s.mapText f)
      (fun cs cs' => cs' = cs.map (.mapText f)) (step (s.mapText f) u) := by
  have hnow := Past.Pairs.now past ht
  cases s with
  | opening => exact parallel_takeKind _ rfl hnow rfl
  | name columns => exact parallel_takeName _ hnow fun _ => rfl
  | named columns column =>
    unfold step
    dsimp only [State.mapText]
    rw [ht.isKeyword]
    split
    · exact .taken rfl
    · exact afterCollation_parallel hnow columns column
  | collation columns column => exact parallel_takeName _ hnow fun _ => rfl
  | collated columns column => exact afterCollation_parallel hnow columns column
  | next columns => exact afterColumn_parallel hnow columns
  | closed columns => exact .complete rfl

end IndexedColumns

-- ════════════════════════════════════════════════════════════════════════
-- Foreign keys
-- ════════════════════════════════════════════════════════════════════════

namespace References

/-- Foreign keys that go with each other. -/
inductive State.Parallel (f : String → String) (past : Past) : State → State → Prop
  | table : Parallel f past .table .table
  | named (key : ForeignKey) : Parallel f past (.named key) (.named (key.mapText f))
  | columns (key : ForeignKey) (names : NameList.State) :
    Parallel f past (.columns key names) (.columns (key.mapText f) (names.mapText f))
  | clauses (key : ForeignKey) : Parallel f past (.clauses key) (.clauses (key.mapText f))
  | event (key : ForeignKey) : Parallel f past (.event key) (.event (key.mapText f))
  | action (key : ForeignKey) (event : Event) :
    Parallel f past (.action key event) (.action (key.mapText f) event)
  | set (key : ForeignKey) (event : Event) :
    Parallel f past (.set key event) (.set (key.mapText f) event)
  | no (key : ForeignKey) (event : Event) :
    Parallel f past (.no key event) (.no (key.mapText f) event)
  | matchType (key : ForeignKey) : Parallel f past (.matchType key) (.matchType (key.mapText f))
  | not (key : ForeignKey) {word word' : Token} : past.Pairs f word word' →
    Parallel f past (.not key word) (.not (key.mapText f) word')
  | deferrable (key : ForeignKey) (negated : Bool) :
    Parallel f past (.deferrable key negated) (.deferrable (key.mapText f) negated)
  | initially (key : ForeignKey) (negated : Bool) :
    Parallel f past (.initially key negated) (.initially (key.mapText f) negated)
  | closed (key : ForeignKey) : Parallel f past (.closed key) (.closed (key.mapText f))

/-- What is read of foreign keys that go with each other. -/
structure Result.Parallel (f : String → String) (past : Past) (r r' : Result) : Prop where
  key : r'.key = r.key.mapText f
  heldNot : Option.Rel (past.Pairs f) r.heldNot r'.heldNot

/-- An action on either side. -/
theorem State.Parallel.setAction (key : ForeignKey) (event : Event) (action : ReferentialAction) :
    State.Parallel f past (.clauses (References.setAction key event action))
      (.clauses (References.setAction (key.mapText f) event action)) := by
  cases event <;> exact .clauses _

theorem betweenClauses_parallel (hnow : past.Pairs f t u) (key : ForeignKey) :
    (betweenClauses key t).Parallel past (State.Parallel f past) (Result.Parallel f past)
      (betweenClauses (key.mapText f) u) := by
  unfold betweenClauses
  have hkind := hnow.counterpart.similar
  generalize t.kind = k, u.kind = k' at hkind ⊢
  cases hkind with
  | same =>
    split
    · exact .taken (.event key)
    · exact .taken (.matchType key)
    · exact .taken (.not key hnow)
    · exact .taken (.deferrable key false)
    · exact .complete ⟨rfl, .none⟩
  | _ => exact .complete ⟨rfl, .none⟩

theorem step_parallel (ht : t.Counterpart f u) {s s' : State} (hs : State.Parallel f past s s') :
    (step s t).Parallel ((t, u) :: past) (State.Parallel f ((t, u) :: past))
      (Result.Parallel f ((t, u) :: past)) (step s' u) := by
  have hnow := Past.Pairs.now past ht
  cases hs with
  | table => exact parallel_takeName _ hnow fun name => .named { table := name }
  | named key =>
    have hbetween := betweenClauses_parallel hnow key
    unfold step
    dsimp only
    have hkind := ht.similar
    generalize t.kind = k, u.kind = k' at hkind ⊢
    cases hkind with
    | same =>
      split
      · exact .taken (.columns key (.name []))
      · exact hbetween
    | _ => exact hbetween
  | columns key names =>
    refine (NameList.step_parallel ht _ _ names).andThen ?_ ?_
    · rintro names _ rfl
      exact .columns key names
    · rintro columns _ rfl
      exact betweenClauses_parallel hnow { key with columns }
  | clauses key => exact betweenClauses_parallel hnow key
  | no key event => exact parallel_takeKeyword _ _ hnow (.setAction key event _)
  | matchType key =>
    exact parallel_takeName _ hnow fun name => .clauses { key with matchType := some name }
  | closed key => exact .complete ⟨rfl, .none⟩
  | event key | action key event | set key event | not key hword | deferrable key negated
  | initially key negated =>
    -- in these states the kind of the token says what becomes of it
    unfold step
    dsimp only
    have hkind := ht.similar
    generalize t.kind = k, u.kind = k' at hkind ⊢
    cases hkind with
    | same =>
      split <;> first
        | exact parallel_refuse _ hnow
        | exact .complete ⟨rfl, .none⟩
        | exact .complete ⟨rfl, .some (hword.later _)⟩
        | exact .taken (.setAction key _ _)
        | exact .taken (.action key _)
        | exact .taken (.set key event)
        | exact .taken (.no key event)
        | exact .taken (.deferrable key true)
        | exact .taken (.initially key negated)
        | exact .taken (.closed { key with deferral := .stated negated _ })
    | _ => first
      | exact parallel_refuse _ hnow
      | exact .complete ⟨rfl, .none⟩
      | exact .complete ⟨rfl, .some (hword.later _)⟩

end References

end CreateTable.Grammar
