import CreateTable.Proofs.Parallel.Items

/-!
# Statements side by side

The readers of bodies and statements go with each other on tokens that do.

## Main definitions

- `Body.State.Parallel`, `Statement.State.Parallel` — states that go with each other

## Main statements

- `Statement.step_parallel` — statements are read side by side
-/

namespace CreateTable.Grammar

open Verdict

variable {f : String → String} {past : Past} {t u : Token} {limits : Limits}

-- ════════════════════════════════════════════════════════════════════════
-- Bodies
-- ════════════════════════════════════════════════════════════════════════

namespace Body

/-- Bodies that go with each other as far as they are read. -/
structure Progress.Parallel (f : String → String) (past : Past) (p q : Progress) : Prop where
  first : past.Pairs f p.first q.first
  room : q.room = p.room
  columns : List.Forall₂ (CreateTable.Column.Corresponds f past.Excerpt) p.columns q.columns
  constraints : List.Forall₂ (CreateTable.TableConstraint.Corresponds f past.Excerpt)
    p.constraints q.constraints

/-- Items that go with each other. -/
structure Items.Parallel (f : String → String) (past : Past) (i j : Items) : Prop where
  columns : List.Forall₂ (CreateTable.Column.Corresponds f past.Excerpt) i.columns j.columns
  constraints : List.Forall₂ (CreateTable.TableConstraint.Corresponds f past.Excerpt)
    i.constraints j.constraints

/-- Bodies that go with each other. -/
inductive State.Parallel (f : String → String) (past : Past) : State → State → Prop
  | start : Parallel f past .start .start
  | item {p q : Progress} : p.Parallel f past q → Parallel f past (.item p) (.item q)
  | column {p q : Progress} {column column' : Column.State} : p.Parallel f past q →
    column.Parallel f past column' → Parallel f past (.column p column) (.column q column')
  | constraint {p q : Progress} {constraint constraint' : TableConstraint.State} :
    p.Parallel f past q → constraint.Parallel f past constraint' →
    Parallel f past (.constraint p constraint) (.constraint q constraint')
  | closed {i j : Items} : i.Parallel f past j → Parallel f past (.closed i) (.closed j)

variable {p q : Progress} {A : Items → Items → Prop}

theorem Progress.Parallel.start (hnow : past.Pairs f t u) :
    (Progress.start limits t).Parallel f past (.start limits u) :=
  ⟨hnow, rfl, .nil, .nil⟩

/-- What has been read goes with each other when one more token has been taken. -/
theorem Progress.Parallel.later (h : p.Parallel f past q) (x : Token × Token) :
    p.Parallel f (x :: past) q where
  first := h.first.later x
  room := h.room
  columns := h.columns.imp fun _ _ hc => hc.mono fun _ _ hexcerpt => hexcerpt.later x
  constraints := h.constraints.imp fun _ _ hc => hc.mono fun _ _ hexcerpt => hexcerpt.later x

theorem Progress.Parallel.addColumn (h : p.Parallel f past q) {c d : CreateTable.Column}
    (hc : c.Corresponds f past.Excerpt d) : (p.addColumn c).Parallel f past (q.addColumn d) where
  first := h.first
  room := congrArg (· - 1) h.room
  columns := .cons hc h.columns
  constraints := h.constraints

theorem Progress.Parallel.addConstraint (h : p.Parallel f past q)
    {c d : CreateTable.TableConstraint} (hc : c.Corresponds f past.Excerpt d) :
    (p.addConstraint c).Parallel f past (q.addConstraint d) where
  first := h.first
  room := h.room
  columns := h.columns
  constraints := .cons hc h.constraints

theorem Progress.Parallel.items (h : p.Parallel f past q) : p.items.Parallel f past q.items :=
  ⟨List.rel_reverse h.columns, List.rel_reverse h.constraints⟩

/-- Lists that go with each other are both empty or both not. -/
private theorem isEmpty_of_forall₂ {α β : Type} {R : α → β → Prop} {xs : List α} {ys : List β}
    (h : List.Forall₂ R xs ys) : ys.isEmpty = xs.isEmpty := by
  cases h <;> rfl

-- a body is complete only behind its end, so `A` is about nothing here
theorem requireColumn_parallel (h : p.Parallel f past q) {v v' : Verdict State Items}
    (hv : v.Parallel past (State.Parallel f past) A v') :
    (requireColumn p v).Parallel past (State.Parallel f past) A (requireColumn q v') := by
  unfold requireColumn
  rw [isEmpty_of_forall₂ h.columns]
  split
  · exact parallel_error _ h.first
  · exact hv

theorem finish_parallel (hnow : past.Pairs f t u) (h : p.Parallel f past q) :
    (finish p t).Parallel past (State.Parallel f past) A (finish q u) :=
  requireColumn_parallel h (parallel_takeKind _ rfl hnow (.closed h.items))

theorem beginColumn_parallel (hnow : past.Pairs f t u) (h : p.Parallel f past q) :
    (beginColumn limits p t).Parallel past (State.Parallel f past) A (beginColumn limits q u) := by
  unfold beginColumn
  rw [h.room]
  split
  · exact parallel_error _ hnow
  · exact parallel_takeName _ hnow fun name => .column h (.type (.ofName name) .nil)

/-- Where the token begins a constraint, and where it does not. -/
private theorem constraint_parallel (hnow : past.Pairs f t u) (h : p.Parallel f past q)
    {otherwise otherwise' : Verdict State Items}
    (hother : otherwise.Parallel past (State.Parallel f past) A otherwise') :
    (match TableConstraint.start? t with
      | some s => .taken (.constraint p s)
      | none => otherwise : Verdict State Items).Parallel past (State.Parallel f past) A
      (match TableConstraint.start? u with
        | some s => .taken (.constraint q s)
        | none => otherwise') := by
  have hstart : Option.Rel (TableConstraint.State.Parallel f past) (TableConstraint.start? t)
      (TableConstraint.start? u) :=
    TableConstraint.start?_parallel hnow.counterpart
  generalize TableConstraint.start? t = s, TableConstraint.start? u = s' at hstart ⊢
  cases hstart with
  | some hs => exact .taken (.constraint h hs)
  | none => exact hother

theorem item_parallel (hnow : past.Pairs f t u) (h : p.Parallel f past q) :
    (item limits p t).Parallel past (State.Parallel f past) A (item limits q u) := by
  unfold item
  have hright := hnow.counterpart.similar.eq_iff .rightParen rfl
  simp only [isEmpty_of_forall₂ h.columns, isEmpty_of_forall₂ h.constraints, hright]
  split
  · exact finish_parallel hnow h
  · refine constraint_parallel hnow h ?_
    split
    · exact beginColumn_parallel hnow h
    · exact parallel_refuse _ hnow

theorem afterColumn_parallel (hnow : past.Pairs f t u) (h : p.Parallel f past q) :
    (afterColumn p t).Parallel past (State.Parallel f past) A (afterColumn q u) := by
  unfold afterColumn
  simp only [hnow.counterpart.similar.eq_iff .comma rfl]
  split
  · exact .taken (.item h)
  · exact finish_parallel hnow h

theorem afterConstraint_parallel (hnow : past.Pairs f t u) (h : p.Parallel f past q) :
    (afterConstraint p t).Parallel past (State.Parallel f past) A (afterConstraint q u) :=
  constraint_parallel hnow h (afterColumn_parallel hnow h)

theorem step_parallel (ht : t.Counterpart f u) {s s' : State} (hs : State.Parallel f past s s') :
    (step limits s t).Parallel ((t, u) :: past) (State.Parallel f ((t, u) :: past))
      (Items.Parallel f past) (step limits s' u) := by
  have hnow := Past.Pairs.now past ht
  cases hs with
  | start => exact item_parallel hnow (.start hnow)
  | item h => exact item_parallel hnow (h.later _)
  | column h hcolumn =>
    exact (Column.step_parallel ht hcolumn).andThen (fun _ _ hs => .column (h.later _) hs)
      fun _ _ hc => afterColumn_parallel hnow ((h.later _).addColumn hc)
  | constraint h hconstraint =>
    refine (TableConstraint.step_parallel ht hconstraint).andThen
      (fun _ _ hs => .constraint (h.later _) hs) ?_
    rintro ⟨c, held⟩ ⟨c', held'⟩ ⟨hc, hheld⟩
    have hadded := (h.later (t, u)).addConstraint hc
    cases hheld with
    | none => exact afterConstraint_parallel hnow hadded
    | some hword => exact requireColumn_parallel hadded (parallel_refuse _ hword)
  | closed h => exact .complete h

end Body

-- ════════════════════════════════════════════════════════════════════════
-- Statements
-- ════════════════════════════════════════════════════════════════════════

namespace Statement

/-- Statements that go with each other. -/
inductive State.Parallel (f : String → String) (past : Past) : State → State → Prop
  | start : Parallel f past .start .start
  | created : Parallel f past .created .created
  | temporary : Parallel f past .temporary .temporary
  | table {a b : Table} : a.Corresponds f past.Excerpt b → Parallel f past (.table a) (.table b)
  | ifWord {a b : Table} : a.Corresponds f past.Excerpt b → Parallel f past (.ifWord a) (.ifWord b)
  | ifNot {a b : Table} : a.Corresponds f past.Excerpt b → Parallel f past (.ifNot a) (.ifNot b)
  | name {a b : Table} : a.Corresponds f past.Excerpt b → Parallel f past (.name a) (.name b)
  | named {a b : Table} (name : String) : a.Corresponds f past.Excerpt b →
    Parallel f past (.named a name) (.named b (f name))
  | qualified {a b : Table} : a.Corresponds f past.Excerpt b →
    Parallel f past (.qualified a) (.qualified b)
  | bodyOpen {a b : Table} : a.Corresponds f past.Excerpt b →
    Parallel f past (.bodyOpen a) (.bodyOpen b)
  | body {a b : Table} {body body' : Body.State} : a.Corresponds f past.Excerpt b →
    body.Parallel f past body' → Parallel f past (.body a body) (.body b body')
  | without {a b : Table} : a.Corresponds f past.Excerpt b →
    Parallel f past (.without a) (.without b)
  | optionEnd {a b : Table} : a.Corresponds f past.Excerpt b →
    Parallel f past (.optionEnd a) (.optionEnd b)
  | option {a b : Table} : a.Corresponds f past.Excerpt b →
    Parallel f past (.option a) (.option b)
  | terminated {a b : Table} : a.Corresponds f past.Excerpt b →
    Parallel f past (.terminated a) (.terminated b)

variable {a b : Table} {A : Table → Table → Prop}

/-- Tables of which only this is known yet go with each other. -/
theorem corresponds_unnamed (hf : f "" = "") (temporary : Bool) :
    Table.Corresponds f past.Excerpt { temporary } { temporary } :=
  ⟨rfl, hf.symm, rfl, rfl, rfl, rfl, .nil, .nil⟩

theorem tableWord_parallel (hnow : past.Pairs f t u) (h : a.Corresponds f past.Excerpt b) :
    (tableWord a t).Parallel past (State.Parallel f past) A (tableWord b u) := by
  unfold tableWord
  have hkind := hnow.counterpart.similar
  generalize t.kind = k, u.kind = k' at hkind ⊢
  cases hkind with
  | same =>
    split
    · exact .taken (.table h)
    · split
      · exact parallel_error _ hnow
      · exact parallel_refuse _ hnow
    · exact parallel_refuse _ hnow
  | _ => exact parallel_refuse _ hnow

theorem firstName_parallel (hnow : past.Pairs f t u) (h : a.Corresponds f past.Excerpt b) :
    (firstName a t).Parallel past (State.Parallel f past) A (firstName b u) :=
  parallel_takeName _ hnow fun name => .named name h

theorem afterName_parallel (hnow : past.Pairs f t u) (h : a.Corresponds f past.Excerpt b) :
    (afterName a t).Parallel past (State.Parallel f past) A (afterName b u) := by
  unfold afterName
  rw [hnow.counterpart.isKeyword]
  split
  · exact parallel_error _ hnow
  · exact parallel_takeKind _ rfl hnow (.body h .start)

theorem finish_parallel (hnow : past.Pairs f t u) (h : a.Corresponds f past.Excerpt b)
    (hA : A a b) :
    (finish a t).Parallel past (State.Parallel f past) A (finish b u) := by
  unfold finish
  have hkind := hnow.counterpart.similar
  generalize t.kind = k, u.kind = k' at hkind ⊢
  cases hkind with
  | same =>
    split
    · exact .taken (.terminated h)
    · exact .complete hA
    · exact parallel_refuse _ hnow
  | _ => exact parallel_refuse _ hnow

theorem beginOption_parallel (hnow : past.Pairs f t u) (h : a.Corresponds f past.Excerpt b)
    {otherwise otherwise' : Verdict State Table}
    (hother : otherwise.Parallel past (State.Parallel f past) A otherwise') :
    (beginOption a t otherwise).Parallel past (State.Parallel f past) A
      (beginOption b u otherwise') := by
  unfold beginOption
  rw [hnow.counterpart.isKeyword, hnow.counterpart.isBareWord]
  split
  · exact .taken (.without h)
  · split
    · exact .taken (.optionEnd { h with strict := rfl })
    · exact hother

/-- Statements are read side by side: on tokens that go with each other, both readers take theirs,
    both are complete, or both refuse the same one for the same cause. -/
theorem step_parallel (hf : f "" = "") (ht : t.Counterpart f u) {s s' : State}
    (hs : State.Parallel f past s s') :
    (step limits s t).Parallel ((t, u) :: past) (State.Parallel f ((t, u) :: past))
      (Table.Corresponds f past.Excerpt) (step limits s' u) := by
  have hnow := Past.Pairs.now past ht
  have hlater : ∀ {a b : Table}, a.Corresponds f past.Excerpt b →
      a.Corresponds f (Past.Excerpt ((t, u) :: past)) b :=
    fun h => h.mono fun _ _ hexcerpt => hexcerpt.later _
  cases hs with
  | start => exact parallel_takeKeyword _ _ hnow .created
  | created =>
    have hword := tableWord_parallel (A := Table.Corresponds f past.Excerpt) hnow
      (corresponds_unnamed hf false)
    unfold step
    dsimp only
    have hkind := ht.similar
    generalize t.kind = k, u.kind = k' at hkind ⊢
    cases hkind with
    | same =>
      split
      · exact .taken .temporary
      · exact .taken .temporary
      · exact hword
    | _ => exact hword
  | temporary => exact tableWord_parallel hnow (corresponds_unnamed hf true)
  | table h =>
    unfold step
    dsimp only
    rw [ht.isKeyword]
    split
    · exact .taken (.ifWord (hlater h))
    · exact firstName_parallel hnow (hlater h)
  | ifWord h => exact parallel_takeKeyword _ _ hnow (.ifNot (hlater h))
  | ifNot h => exact parallel_takeKeyword _ _ hnow (.name { hlater h with ifNotExists := rfl })
  | name h => exact firstName_parallel hnow (hlater h)
  | named name h =>
    unfold step
    dsimp only
    simp only [ht.similar.eq_iff .dot rfl]
    split
    · exact .taken (.qualified { hlater h with schema := rfl })
    · exact afterName_parallel hnow { hlater h with name := rfl }
  | qualified h => exact parallel_takeName _ hnow fun _ => .bodyOpen { hlater h with name := rfl }
  | bodyOpen h => exact afterName_parallel hnow (hlater h)
  | @body a b _ _ h hbody =>
    refine (Body.step_parallel ht hbody).andThen (fun _ _ hs => .body (hlater h) hs) ?_
    rintro i j ⟨hcolumns, hconstraints⟩
    have htable : Table.Corresponds f past.Excerpt
        { a with columns := i.columns, constraints := i.constraints }
        { b with columns := j.columns, constraints := j.constraints } :=
      { h with columns := hcolumns, constraints := hconstraints }
    exact beginOption_parallel hnow (hlater htable) (finish_parallel hnow (hlater htable) htable)
  | without h =>
    unfold step
    dsimp only
    rw [ht.isWord]
    split
    · exact .taken (.optionEnd { hlater h with withoutRowid := rfl })
    · exact parallel_refuse _ hnow
  | optionEnd h =>
    unfold step
    dsimp only
    simp only [ht.similar.eq_iff .comma rfl]
    split
    · exact .taken (.option (hlater h))
    · exact finish_parallel hnow (hlater h) h
  | option h => exact beginOption_parallel hnow (hlater h) (parallel_refuse _ hnow)
  | terminated h =>
    have hsecond := parallel_error (S := State.Parallel f ((t, u) :: past))
      (A := Table.Corresponds f past.Excerpt) .secondStatement hnow
    unfold step
    dsimp only
    have hkind := ht.similar
    generalize t.kind = k, u.kind = k' at hkind ⊢
    cases hkind with
    | same =>
      split
      · exact .taken (.terminated (hlater h))
      · exact .complete h
      · exact hsecond
    | _ => exact hsecond

end Statement

end CreateTable.Grammar
