import CreateTable.Proofs.Editing.Twins

/-!
# The clauses of a foreign key

The clauses between the table of a foreign key and its deferral are read one after another. Each
sets one thing, so clauses that set different things may be exchanged, and of those that set the
same one only the last has an effect. A `NOT` behind them is looked at together with the token that
follows it.

## Main definitions

- `WrittenClause` — a clause as it is written
- `ForeignKey.add` — a foreign key with one more clause
- `References.State.key?` — the foreign key that the next clause is for
- `Statement.HoldsKey` — the places of foreign keys in a statement

## Main statements

- `ForeignKey.add_comm`, `ForeignKey.foldl_add_of_mem` — which clauses commute, and which are lost
- `Statement.HoldsKey.runFrom_not` — a `NOT` that is handed back might as well not have been read
- `parse_foreignKey_clauses` — clauses may be exchanged and overwritten, and `NOT` is a clause only
  before `DEFERRABLE`
-/

namespace CreateTable

open Lexical Grammar Token

-- ════════════════════════════════════════════════════════════════════════
-- Effects on a foreign key
-- ════════════════════════════════════════════════════════════════════════

/-- A clause of a foreign key as it is written: `ON DELETE action`, `ON UPDATE action` or
    `MATCH name`. -/
inductive WrittenClause where
  | action (event : References.Event) (action : ReferentialAction)
  | matchType (name : String)
  deriving Repr, DecidableEq

/-- The word that tells the kinds of clauses apart. -/
def WrittenClause.keyword : WrittenClause → Keyword
  | action event _ => event.keyword
  | matchType _ => .match

namespace ForeignKey

/-- A foreign key with one more clause. -/
def add (key : ForeignKey) : WrittenClause → ForeignKey
  | .action event action => References.setAction key event action
  | .matchType name => { key with matchType := some name }

variable {key : ForeignKey} {a b : WrittenClause} {ws : List WrittenClause}

/-- Clauses of different kinds act on a foreign key in either order. -/
theorem add_comm (h : a.keyword ≠ b.keyword) : (key.add a).add b = (key.add b).add a := by
  rcases a with ⟨_ | _, _⟩ | _ <;> rcases b with ⟨_ | _, _⟩ | _ <;>
    first | rfl | exact absurd rfl h

/-- Of two clauses of one kind the second takes the place of the first. -/
theorem add_add (h : b.keyword = a.keyword) : (key.add a).add b = key.add b := by
  rcases a with ⟨_ | _, _⟩ | _ <;> rcases b with ⟨_ | _, _⟩ | _ <;> first | rfl | cases h

/-- A clause has no effect if one of its kind follows. -/
theorem foldl_add_of_mem (h : ∃ w ∈ ws, w.keyword = a.keyword) :
    ws.foldl add (key.add a) = ws.foldl add key := by
  induction ws generalizing key with
  | nil => simp at h
  | cons w ws ih =>
    rw [List.foldl_cons, List.foldl_cons]
    by_cases hw : w.keyword = a.keyword
    · rw [add_add hw]
    · have hlater : ∃ w ∈ ws, w.keyword = a.keyword := by simpa [hw] using h
      rw [add_comm (Ne.symm hw), ih hlater]

end ForeignKey

-- ════════════════════════════════════════════════════════════════════════
-- Tokens of clauses
-- ════════════════════════════════════════════════════════════════════════

/-- The tokens of a clause, whatever foreign key it is for. -/
def WrittenClause.Derives (ts : List Token) (w : WrittenClause) : Prop :=
  ∀ key : ForeignKey, References.Clause key ts (key.add w)

/-- Clauses in a row. -/
inductive WrittenClauses : List Token → List WrittenClause → Prop
  | nil : WrittenClauses [] []
  | cons {ts rest : List Token} {w : WrittenClause} {ws : List WrittenClause} :
    w.Derives ts → WrittenClauses rest ws → WrittenClauses (ts ++ rest) (w :: ws)

variable {ts us : List Token} {w : WrittenClause} {ws : List WrittenClause}

theorem WrittenClause.derives_action {on word : Token} {event : References.Event}
    {action : ReferentialAction} (hon : on.kind = .keyword .on)
    (hword : word.kind = .keyword event.keyword) (h : References.Action ts action) :
    (WrittenClause.action event action).Derives (on :: word :: ts) :=
  fun _ => .action hon hword h

theorem WrittenClause.derives_matchType {word t : Token} {name : String}
    (hword : word.kind = .keyword .match) (hname : t.name? = some name) :
    (matchType name).Derives [word, t] :=
  fun _ => .matchType hword hname

theorem WrittenClause.Derives.of_alike (h : w.Derives ts) (hlike : List.Forall₂ Alike ts us) :
    w.Derives us :=
  fun key => (h key).of_alike hlike

theorem WrittenClause.Derives.ne_nil (h : w.Derives ts) : ts ≠ [] := by
  rintro rfl
  cases h { table := "" }

theorem WrittenClauses.of_alike (h : WrittenClauses ts ws) (hlike : List.Forall₂ Alike ts us) :
    WrittenClauses us ws := by
  induction h generalizing us with
  | nil =>
    obtain _ | _ := hlike
    exact .nil
  | cons hts _ ih =>
    obtain ⟨us, vs, rfl, hus, hvs⟩ := exists_append_of_forall₂ hlike
    exact .cons (hts.of_alike hus) (ih hvs)

namespace Grammar.References

variable {s : State} {key key' : ForeignKey} {t : Token}

/-- The foreign key that the next clause is for, where one may follow. -/
def State.key? : State → Option ForeignKey
  | .named key => some key
  | .columns key (.closed names) => some { key with columns := names }
  | .clauses key => some key
  | _ => none

theorem step_of_key? (hs : s.key? = some key) (ht : t.kind ≠ .leftParen) :
    step s t = betweenClauses key t := by
  cases s with
  | named key =>
    obtain rfl := Option.some.inj hs
    simp only [step]
  | columns key names =>
    cases names with
    | closed columns =>
      obtain rfl := Option.some.inj hs
      rfl
    | _ => cases hs
  | clauses key =>
    obtain rfl := Option.some.inj hs
    rfl
  | _ => cases hs

theorem Action.takes {event : Event} {action : ReferentialAction} (h : Action ts action) :
    Takes step (.action key event) ts (.clauses (setAction key event action)) := by
  cases h with
  | setNull hset hnull => simp [Takes, step, hset, hnull]
  | setDefault hset hdefault => simp [Takes, step, hset, hdefault]
  | cascade ht => simp [Takes, step, ht]
  | restrict ht => simp [Takes, step, ht]
  | noAction hno haction => simp [Takes, step, hno, haction]

/-- A clause is taken wherever one may follow. -/
theorem Clause.takes (hs : s.key? = some key) (h : Clause key ts key') :
    Takes step s ts (.clauses key') := by
  cases h with
  | @action on word event ts action hon hword haction =>
    refine ⟨.event key, ?_, .action key event, ?_, haction.takes⟩
    · rw [step_of_key? hs (by simp [hon])]
      simp [betweenClauses, hon]
    · cases event <;> simp [step, hword, Event.keyword]
  | @matchType word t name hword hname =>
    refine ⟨.matchType key, ?_, _, ?_, rfl⟩
    · rw [step_of_key? hs (by simp [hword])]
      simp [betweenClauses, hword]
    · simp [step, takeName, hname]

/-- Two clauses are taken one after the other. -/
theorem takes_two {a b : WrittenClause} (hs : s.key? = some key) (hts : a.Derives ts)
    (hus : b.Derives us) : Takes step s (ts ++ us) (.clauses ((key.add a).add b)) :=
  takes_append.2 ⟨_, (hts key).takes hs, (hus _).takes rfl⟩

/-- Clauses in a row are taken one after another. -/
theorem takes_clauses (h : WrittenClauses ts ws) (hne : ws ≠ []) (hs : s.key? = some key) :
    Takes step s ts (.clauses (ws.foldl .add key)) := by
  induction h generalizing s key with
  | nil => exact absurd rfl hne
  | @cons ts rest w ws hts hrest ih =>
    refine takes_append.2 ⟨_, (hts key).takes hs, ?_⟩
    obtain rfl | hne := eq_or_ne ws []
    · obtain _ | _ := hrest
      rfl
    · exact ih hne rfl

end Grammar.References

-- ════════════════════════════════════════════════════════════════════════
-- Foreign keys in a statement
-- ════════════════════════════════════════════════════════════════════════

namespace Grammar.Statement

/-- The places of foreign keys in a statement: on a column, and among the table constraints. -/
inductive HoldsKey : (References.State → State) → Prop
  | column (table : Table) (p : Body.Progress) (column : CreateTable.Column) :
    HoldsKey fun key => .body table (.column p (.constraint column (.references key)))
  | constraint (table : Table) (p : Body.Progress) (name : Option String) (columns : List String) :
    HoldsKey fun key => .body table (.constraint p (.references name columns key))

variable {limits : Limits} {within : References.State → State} {key : ForeignKey}

/-- A statement takes what its foreign key does. -/
theorem HoldsKey.step_of_taken (h : HoldsKey within) {s n : References.State} {t : Token}
    (hn : References.step s t = .taken n) : step limits (within s) t = .taken (within n) := by
  cases h with
  | column table p column => simp [step, Body.step, Column.step, ColumnConstraint.step, hn]
  | constraint table p name columns => simp [step, Body.step, TableConstraint.step, hn]

theorem HoldsKey.takes (h : HoldsKey within) {s s' : References.State}
    (hts : Takes References.step s ts s') : Takes (step limits) (within s) ts (within s') := by
  induction ts generalizing s with
  | nil => exact congrArg within hts
  | cons t ts ih =>
    obtain ⟨n, hn, hts⟩ := hts
    exact ⟨within n, h.step_of_taken hn, ih hts⟩

theorem HoldsKey.unled (h : HoldsKey within) (s : References.State) :
    Unled State.Twin (step limits) (within s) := by
  cases h with
  | column table p column =>
    exact unled_body table (Body.unled_column p (Column.unled_references column s))
  | constraint table p name columns =>
    exact unled_body table
      (Body.unled_constraint p (TableConstraint.unled_references name columns s))

/-- Behind a `NOT` that is handed back, a statement goes on as if its foreign key had been closed
    before the `NOT`. -/
theorem HoldsKey.runFrom_not (h : HoldsKey within) {c c₁ c₂ : Cursor} {not u : Token}
    (hnot : c.next = (.ok not, c₁)) (hkind : not.kind = .keyword .not)
    (hu : c₁.next = (.ok u, c₂)) (hother : u.kind ≠ .keyword .deferrable) :
    (statementReader limits).runFrom (within (.not key not)) c₁ =
      (statementReader limits).runFrom (within (.closed key)) c := by
  have hheld : References.step (.not key not) u = .complete { key, heldNot := some not } := by
    simp only [References.step]
  cases h with
  | column table p column =>
    -- the constraint that the `NOT` begins is read where the next token is looked at, or before
    have hbegins : (statementReader limits).step
        (.body table (.column p (.constraint column (.references (.closed key))))) not =
        .taken (.body table (.column p
          (.constraint (column.constrain (.references key)) .null))) := by
      simp [statementReader, step, Body.step, Column.step, ColumnConstraint.step, References.step,
        Column.afterConstraint, Column.betweenConstraints, Column.beginConstraint,
        ColumnConstraint.start?, hkind]
    rw [Reader.runFrom_of_taken hnot hbegins]
    refine Reader.runFrom_congr hu ?_
    simp only [statementReader, step, Body.step, Column.step, ColumnConstraint.step, hheld,
      Verdict.andThen_complete, Column.afterConstraint, takeKeyword, takeKind]
    split
    · rfl
    · rfl
  | constraint table p name columns =>
    -- the `NOT` is refused in either case, unless there is no column at all
    obtain ⟨e, he⟩ : ∃ e, Body.requireColumn
        (p.addConstraint { name, rule := .foreignKey columns key })
        (not.refuse .commaOrClose : Verdict Body.State Body.Items) = .refused e := by
      unfold Body.requireColumn
      split
      · exact ⟨_, rfl⟩
      · exact ⟨_, rfl⟩
    have hafter : (statementReader limits).step
        (.body table (.constraint p (.references name columns (.not key not)))) u =
        .refused e := by
      simp [statementReader, step, Body.step, TableConstraint.step, hheld, he]
    have hbefore : (statementReader limits).step
        (.body table (.constraint p (.references name columns (.closed key)))) not =
        .refused e := by
      simp [statementReader, step, Body.step, TableConstraint.step, References.step,
        Body.afterConstraint, TableConstraint.start?, TableConstraint.rule?, Body.afterColumn,
        Body.finish, takeKind, hkind, he]
    rw [Reader.runFrom_of_refused hu hafter, Reader.runFrom_of_refused hnot hbefore]

/-- In place of tokens that lead to a foreign key, others that lead to the same one are read as the
    same table. -/
theorem Admits.behind_clauses {before front front' after after' : List Token}
    {s : References.State} {written : List WrittenColumn} {table : Table} (h : HoldsKey within)
    (hadmits : Admits limits (before ++ front ++ after) written table)
    (hbefore : Takes (step limits) .start before (within s))
    (hfront : Takes References.step s front (.clauses key))
    (hfront' : Takes References.step s front' (.clauses key)) (hafter : Shifted after after') :
    ∃ written', Admits limits (before ++ front' ++ after') written' table :=
  hadmits.behind_twins (takes_append.2 ⟨_, hbefore, h.takes hfront⟩)
    (takes_append.2 ⟨_, hbefore, h.takes hfront'⟩) (.refl _) (h.unled _) hafter

variable {limits : Limits} {before mid as bs mid' as' bs' us after after' : List Token}
  {a b : WrittenClause} {s : References.State} {written : List WrittenColumn} {table : Table}

/-- Two neighbouring clauses of different kinds are read as the same the other way round. -/
theorem Admits.exchange_clauses (hadmits : Admits limits (before ++ as ++ bs ++ after) written table)
    (h : HoldsKey within) (hbefore : Takes (step limits) .start before (within s))
    (hs : s.key? = some key) (ha : a.Derives as) (hb : b.Derives bs)
    (hkeyword : a.keyword ≠ b.keyword) (hbs : Shifted bs bs') (has : Shifted as as')
    (hafter : Shifted after after') :
    ∃ written', Admits limits (before ++ bs' ++ as' ++ after') written' table := by
  rw [List.append_assoc before] at hadmits ⊢
  have hexchanged := References.takes_two hs (hb.of_alike hbs.alike) (ha.of_alike has.alike)
  rw [ForeignKey.add_comm hkeyword.symm] at hexchanged
  exact hadmits.behind_clauses h hbefore (References.takes_two hs ha hb) hexchanged hafter

/-- A clause before others, one of which is of its kind, has no effect. -/
theorem Admits.insert_clause (hadmits : Admits limits (before ++ (mid ++ after)) written table)
    (h : HoldsKey within) (hbefore : Takes (step limits) .start before (within s))
    (hs : s.key? = some key) (hmid : WrittenClauses mid ws) (hw : w.Derives us)
    (hkind : ∃ v ∈ ws, v.keyword = w.keyword) (hmid' : List.Forall₂ Alike mid mid')
    (hafter : Shifted after after') :
    ∃ written', Admits limits (before ++ us ++ (mid' ++ after')) written' table := by
  have hne : ws ≠ [] := by
    rintro rfl
    simp at hkind
  have hlonger := References.takes_clauses (.cons hw (hmid.of_alike hmid')) (List.cons_ne_nil w ws) hs
  rw [List.foldl_cons, ForeignKey.foldl_add_of_mem hkind] at hlonger
  rw [← List.append_assoc] at hadmits
  obtain ⟨written', hadmits'⟩ :=
    hadmits.behind_clauses h hbefore (References.takes_clauses hmid hne hs) hlonger hafter
  exact ⟨written', by simpa using hadmits'⟩

/-- Where a `NOT` may open a deferral or another constraint, what is parsed is read behind it. -/
theorem HoldsKey.parse_eq_runFrom_not (h : HoldsKey within) {sql : String} {c c₁ : Cursor}
    {not : Token} (hreads : (Cursor.ofText sql.toList).Reads before c)
    (hbefore : Takes (step limits) .start before (within s)) (hs : s.key? = some key)
    (hnot : c.next = (.ok not, c₁)) (hkind : not.kind = .keyword .not)
    (hlength : sql.utf8ByteSize ≤ limits.maxSqlLength) :
    parse limits sql = (statementReader limits).runFrom (within (.not key not)) c₁ := by
  have hstep : References.step s not = .taken (.not key not) := by
    rw [References.step_of_key? hs (by simp [hkind])]
    simp [References.betweenClauses, hkind]
  have hgoes := Reader.runFrom_of_takes_reads (r := statementReader limits) hreads hbefore
  rw [Reader.runFrom_of_taken hnot (h.step_of_taken hstep)] at hgoes
  rw [parse_of_length_le hlength]
  exact hgoes

end Grammar.Statement

-- ════════════════════════════════════════════════════════════════════════
-- Texts
-- ════════════════════════════════════════════════════════════════════════

/-- Between the table of a foreign key and its deferral, two neighbouring clauses of different kinds
    may be exchanged, and a clause may be inserted before another one of its kind. The table stays
    the same under limits that allow for the longer text. A `NOT` belongs to the foreign key if and
    only if `DEFERRABLE` follows. Otherwise the statement is read as if the foreign key had been
    closed before the `NOT`. -/
theorem parse_foreignKey_clauses {limits : Limits} {sql : String} {before : List Token} {c : Cursor}
    {within : References.State → Statement.State} {s : References.State} {key : ForeignKey}
    (hreads : (Cursor.ofText sql.toList).Reads before c)
    (htakes : Takes (Statement.step limits) .start before (within s))
    (hwithin : Statement.HoldsKey within) (hs : s.key? = some key) :
    (∀ {table : Table} {as bs after : List Token} {a b : WrittenClause} {gap gap' gap'' : List Char}
        {length : Nat}, parse limits sql = .ok table →
      tokenize sql.toList = .ok (before ++ as ++ bs ++ after) → a.Derives as → b.Derives bs →
      a.keyword ≠ b.keyword → Trivia.Separator gap → Trivia.Separator gap' →
      Trivia.Separator gap'' → (exchanged sql as bs gap gap' gap'').utf8ByteSize ≤ length →
      parse { limits with maxSqlLength := length } (exchanged sql as bs gap gap' gap'') =
        .ok table) ∧
    (∀ {table : Table} {mid after us : List Token} {ws : List WrittenClause} {w : WrittenClause}
        {clause : String} {gap gap' : List Char} {length : Nat}, parse limits sql = .ok table →
      tokenize sql.toList = .ok (before ++ (mid ++ after)) → WrittenClauses mid ws →
      (∃ v ∈ ws, v.keyword = w.keyword) → tokenize clause.toList = .ok us → w.Derives us →
      Trivia.Separator gap → Trivia.Separator gap' →
      (inserted sql before us gap gap').utf8ByteSize ≤ length →
      parse { limits with maxSqlLength := length } (inserted sql before us gap gap') =
        .ok table) ∧
    ∀ {c₁ c₂ : Cursor} {not u : Token}, c.next = (.ok not, c₁) → not.kind = .keyword .not →
      c₁.next = (.ok u, c₂) → sql.utf8ByteSize ≤ limits.maxSqlLength →
      (u.kind = .keyword .deferrable →
        parse limits sql = (statementReader limits).runFrom (within (.deferrable key true)) c₂) ∧
      (u.kind ≠ .keyword .deferrable →
        parse limits sql = (statementReader limits).runFrom (within (.closed key)) c) := by
  refine ⟨?_, ?_, ?_⟩
  · intro table as bs after a b gap gap' gap'' length h htokens ha hb hkeyword hgap hgap' hgap''
      hlength
    refine parse_exchanged h htokens ha.ne_nil hb.ne_nil hgap hgap' hgap'' ?_ hlength
    intro bs' as' after' written hbs has hafter hadmits
    exact hadmits.exchange_clauses hwithin htakes hs ha hb hkeyword hbs has hafter
  · intro table mid after us ws w clause gap gap' length h htokens hmid hkind hclause hw hgap hgap'
      hlength
    have hbefore : before ≠ [] := by
      rintro rfl
      cases hwithin <;> cases htakes
    have hlegible : Legible us := by
      obtain ⟨c', -, hus, -⟩ := tokenize_eq_ok.1 hclause
      exact ⟨_, c', hus⟩
    refine parse_inserted h htokens hbefore hlegible hw.ne_nil hgap hgap' ?_ hlength
    intro us' all written hus hall hadmits
    obtain ⟨mid', after', rfl, hmid', -⟩ := exists_append_of_forall₂ hall.alike
    obtain ⟨-, hafter⟩ := hall.of_append hmid'.length_eq
    exact hadmits.insert_clause hwithin htakes hs hmid (hw.of_alike hus.alike) hkind hmid' hafter
  · intro c₁ c₂ not u hnot hkind hu hlength
    rw [hwithin.parse_eq_runFrom_not hreads htakes hs hnot hkind hlength]
    constructor
    · intro hdeferrable
      refine Reader.runFrom_of_taken hu (hwithin.step_of_taken ?_)
      simp [References.step, hdeferrable]
    · exact hwithin.runFrom_not hnot hkind hu

/-- An action and a match type are exchanged, an action is overwritten, and the `NOT` behind them
    begins another constraint. -/
theorem parse_foreignKey_clauses_notNull :
    ∃ (before mid : List Token) (c c' : Cursor)
      (within : References.State → Statement.State),
      (Cursor.ofText
        "CREATE TABLE t(x REFERENCES u MATCH m ON DELETE CASCADE NOT NULL)".toList).Reads before c ∧
      Takes (Statement.step {}) .start before (within (.named { table := "u" })) ∧
      c.Reads mid c' ∧
      Takes (Statement.step {}) .start (before ++ mid) (within (.clauses
        { table := "u", matchType := some "m", onDelete := .cascade })) ∧
      Statement.HoldsKey within ∧
      (let table : Table :=
        { name := "t"
          columns := [{ name := "x", notNull := true,
                        foreignKey := some
                          { table := "u", matchType := some "m", onDelete := .cascade } }] }
      parse { maxSqlLength := 69 }
        "CREATE TABLE t(x REFERENCES u  ON DELETE CASCADE MATCH m  NOT NULL)" = .ok table ∧
      parse { maxSqlLength := 85 }
        "CREATE TABLE t(x REFERENCES u ON DELETE SET NULL  MATCH m ON DELETE CASCADE NOT NULL)" =
          .ok table) ∧
      parse {} "CREATE TABLE t(x REFERENCES u MATCH m ON DELETE CASCADE NOT NULL)" =
        (statementReader {}).runFrom (within (.closed
          { table := "u", matchType := some "m", onDelete := .cascade })) c' := by
  have hparse : parse {} "CREATE TABLE t(x REFERENCES u MATCH m ON DELETE CASCADE NOT NULL)" = .ok
      { name := "t"
        columns := [{ name := "x", notNull := true,
                      foreignKey := some
                        { table := "u", matchType := some "m", onDelete := .cascade } }] } :=
    parse_eq_ok.2 ⟨by decide, eq_ok_of_toOption (by decide +kernel)⟩
  have htokens : tokenize
      "CREATE TABLE t(x REFERENCES u MATCH m ON DELETE CASCADE NOT NULL)".toList = .ok
      ([⟨.keyword .create, [], "CREATE".toList, 0⟩, ⟨.keyword .table, [' '], "TABLE".toList, 7⟩,
          ⟨.identifier, [' '], ['t'], 13⟩, ⟨.leftParen, [], ['('], 14⟩,
          ⟨.identifier, [], ['x'], 15⟩, ⟨.keyword .references, [' '], "REFERENCES".toList, 17⟩,
          ⟨.identifier, [' '], ['u'], 28⟩] ++
        [⟨.keyword .match, [' '], "MATCH".toList, 30⟩, ⟨.identifier, [' '], ['m'], 36⟩] ++
        [⟨.keyword .on, [' '], "ON".toList, 38⟩, ⟨.keyword .delete, [' '], "DELETE".toList, 41⟩,
          ⟨.keyword .cascade, [' '], "CASCADE".toList, 48⟩] ++
        [⟨.keyword .not, [' '], "NOT".toList, 56⟩, ⟨.keyword .null, [' '], "NULL".toList, 60⟩,
          ⟨.rightParen, [], [')'], 64⟩]) :=
    eq_ok_of_toOption (by decide +kernel)
  have hclause : tokenize "ON DELETE SET NULL".toList = .ok
      [⟨.keyword .on, [], "ON".toList, 0⟩, ⟨.keyword .delete, [' '], "DELETE".toList, 3⟩,
        ⟨.keyword .set, [' '], "SET".toList, 10⟩, ⟨.keyword .null, [' '], "NULL".toList, 14⟩] :=
    eq_ok_of_toOption (by decide +kernel)
  obtain ⟨_, _, hall, -⟩ := tokenize_eq_ok.1 htokens
  obtain ⟨c', hfront, hrest⟩ := hall.split
  obtain ⟨_, hmost, hbs⟩ := hfront.split
  obtain ⟨c, hbefore, has⟩ := hmost.split
  obtain _ | ⟨hnot, -, hrest⟩ := hrest
  obtain _ | ⟨hnull, -, -⟩ := hrest
  have hmatch : (WrittenClause.matchType "m").Derives
      [⟨.keyword .match, [' '], "MATCH".toList, 30⟩, ⟨.identifier, [' '], ['m'], 36⟩] :=
    WrittenClause.derives_matchType rfl (by decide +kernel)
  have hcascade : (WrittenClause.action .delete .cascade).Derives
      [⟨.keyword .on, [' '], "ON".toList, 38⟩, ⟨.keyword .delete, [' '], "DELETE".toList, 41⟩,
        ⟨.keyword .cascade, [' '], "CASCADE".toList, 48⟩] :=
    WrittenClause.derives_action rfl rfl (.cascade rfl)
  have hsetNull : (WrittenClause.action .delete .setNull).Derives
      [⟨.keyword .on, [], "ON".toList, 0⟩, ⟨.keyword .delete, [' '], "DELETE".toList, 3⟩,
        ⟨.keyword .set, [' '], "SET".toList, 10⟩, ⟨.keyword .null, [' '], "NULL".toList, 14⟩] :=
    WrittenClause.derives_action rfl rfl (.setNull rfl rfl)
  have hwithin := Statement.HoldsKey.column { name := "t" }
    (.start {} ⟨.identifier, [], ['x'], 15⟩) { name := "x" }
  have hgap : Trivia.Separator [' '] := ⟨⟨' ', rfl, rfl⟩, .blank rfl .nil⟩
  obtain ⟨hexchange, hinsert, -⟩ :=
    @parse_foreignKey_clauses {} _ _ _ _ (.named { table := "u" }) _ hbefore (by decide +kernel)
      hwithin rfl
  obtain ⟨-, -, hlook⟩ :=
    @parse_foreignKey_clauses {} _ _ _ _
      (.clauses { table := "u", matchType := some "m", onDelete := .cascade }) _ hfront
      (by decide +kernel) hwithin rfl
  have hmid := WrittenClauses.cons hmatch (.cons hcascade .nil)
  have hkind : ∃ v ∈ [WrittenClause.matchType "m", .action .delete .cascade],
      v.keyword = (WrittenClause.action .delete .setNull).keyword :=
    ⟨_, List.mem_cons_of_mem _ List.mem_cons_self, rfl⟩
  refine ⟨_, _, c, c', _, hbefore, by decide +kernel, has.append hbs, by decide +kernel, hwithin,
    ⟨?_, ?_⟩, (hlook hnot rfl hnull (by decide +kernel)).2 (by decide)⟩
  · refine Eq.trans (congrArg (parse { maxSqlLength := 69 }) ?_)
      (hexchange hparse htokens hmatch hcascade (by decide) hgap hgap hgap ?_)
    · decide +kernel
    · decide +kernel
  · refine Eq.trans (congrArg (parse { maxSqlLength := 85 }) ?_)
      (hinsert hparse htokens hmid hkind hclause hsetNull hgap hgap ?_)
    · decide +kernel
    · decide +kernel

end CreateTable
